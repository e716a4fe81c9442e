import KafkaCli.DumpLog.Command
import KafkaCli.Lib.TwinRuns

/-!
# Dumps in related states

What a dump prints and notes of a log or an index does not depend on the state that it starts in. A
relation between states that printing a line and noting an offset keep is therefore kept by the
whole dump (`twins_dumpLogFile`, `twins_dumpOffsetIndex`).
-/

namespace KafkaCli.DumpLog

open Run TwinRuns

/-! ## Logs -/

/-- What a dump of a log does to its state keeps the relation. -/
structure KeptByLogs (path : String) (R : DumpState → DumpState → Prop) : Prop where
  print : ∀ {state own}, R state own → ∀ line : String,
    R { state with out := state.out ++ [line] } { own with out := own.out ++ [line] }
  note : ∀ offset, Twins R (noteOffset path offset) (noteOffset path offset)
  restart : ∀ {state own}, R state own →
    R { state with lastOffset := -1 } { own with lastOffset := -1 }

section Logs

variable {path : String} {R : DumpState → DumpState → Prop} (hR : KeptByLogs path R)
  {reader : BatchReader} {options : DumpOptions}

include hR

theorem twins_printLine (line : String) : Twins R (printLine line) (printLine line) :=
  .modify fun _ _ h => hR.print h line

theorem twins_decodeAndPrintBatch (bytes : List UInt8) (position : Int) :
    Twins R (decodeAndPrintBatch reader options path bytes position)
      (decodeAndPrintBatch reader options path bytes position) := by
  refine (Twins.ofExcept _).bind fun lazy => (twins_printLine hR _).bind fun _ => ?_
  refine .ite ((Twins.ofExcept _).bind fun records => .forM fun record _ => ?_) (.pure _)
  exact (hR.note _).bind fun _ => twins_printLine hR _

/-- The loop stops at the same place. -/
theorem alike_dumpBatches (buffer : List UInt8) (cursor : Nat) (state own : DumpState)
    (h : R state own) :
    (dumpBatches reader options path buffer cursor state).stop =
        (dumpBatches reader options path buffer cursor own).stop ∧
      R (dumpBatches reader options path buffer cursor state).state
        (dumpBatches reader options path buffer cursor own).state := by
  fun_induction dumpBatches reader options path buffer cursor state generalizing own with
  | case1 cursor state hcursor remaining hshort =>
    rw [dumpBatches, if_pos hcursor, if_pos hshort]
    exact ⟨rfl, h⟩
  | case2 cursor state hcursor remaining hshort batchLength hlow =>
    rw [dumpBatches, if_pos hcursor, if_neg hshort, if_pos hlow]
    exact ⟨rfl, h⟩
  | case3 cursor state hcursor remaining hshort batchLength hlow total hfits =>
    rw [dumpBatches, if_pos hcursor, if_neg hshort, if_neg hlow, if_pos hfits]
    exact ⟨rfl, h⟩
  | case4 cursor state hcursor remaining hshort batchLength hlow total hfits done next hrun walk
      ih =>
    have hbatch : Alike R _
        ((decodeAndPrintBatch reader options path (remaining.take total) cursor).run own) :=
      twins_decodeAndPrintBatch hR _ _ state own h
    rw [hrun] at hbatch
    generalize hother : (decodeAndPrintBatch reader options path (remaining.take total)
      cursor).run own = other at hbatch
    cases hbatch with
    | ok _ hnext =>
      rw [dumpBatches.eq_def reader options path buffer cursor own, if_pos hcursor]
      simp only [remaining, batchLength, total] at hshort hlow hfits hother
      simp only [hshort, hlow, hfits, hother, if_false]
      exact ih _ hnext
  | case5 cursor state hcursor remaining hshort batchLength hlow total hfits error next hrun =>
    have hbatch : Alike R _
        ((decodeAndPrintBatch reader options path (remaining.take total) cursor).run own) :=
      twins_decodeAndPrintBatch hR _ _ state own h
    rw [hrun] at hbatch
    generalize hother : (decodeAndPrintBatch reader options path (remaining.take total)
      cursor).run own = other at hbatch
    cases hbatch with
    | error _ hnext =>
      rw [dumpBatches.eq_def reader options path buffer cursor own, if_pos hcursor]
      simp only [remaining, batchLength, total] at hshort hlow hfits hother
      simp only [hshort, hlow, hfits, hother, if_false]
      exact ⟨trivial, hR.print hnext _⟩
  | case6 cursor state hcursor =>
    rw [dumpBatches, if_neg hcursor]
    exact ⟨rfl, h⟩

theorem twins_dumpLogFile (name : String) (maxBytes : Int)
    (content : Except String (List UInt8)) :
    Twins R (dumpLogFile reader options path name maxBytes content)
      (dumpLogFile reader options path name maxBytes content) := by
  have hline : Twins R ((fileLine name).forM printLine) ((fileLine name).forM printLine) := by
    cases fileLine name with
    | none => exact .pure _
    | some line => exact twins_printLine hR line
  refine hline.bind fun _ => (Twins.ofExcept _).bind fun bytes => ?_
  intro state own h
  let limit := if maxBytes < 0 then bytes.length else min maxBytes.toNat bytes.length
  let buffer := bytes.take limit
  -- the line about what follows the batches
  let finish : Nat → Dump Unit := fun cursor =>
    if buffer.length - cursor > 0 ∧ cursor < limit then
      printLine (s!"Found invalid bytes at the end of {path} starting at byte offset {cursor}: " ++
        s!"{buffer.length - cursor} bytes remaining")
    else return ()
  have hfinish : ∀ cursor, Twins R (finish cursor) (finish cursor) := fun cursor =>
    .ite (twins_printLine hR _) (.pure _)
  let walk := dumpBatches reader options path buffer 0 { state with lastOffset := -1 }
  let ownWalk := dumpBatches reader options path buffer 0 { own with lastOffset := -1 }
  obtain ⟨hstop, hwalk⟩ : walk.stop = ownWalk.stop ∧ R walk.state ownWalk.state :=
    alike_dumpBatches hR buffer 0 _ _ (hR.restart h)
  have hend : Alike R ((finish walk.stop).run walk.state)
      ((finish ownWalk.stop).run ownWalk.state) := by
    rw [hstop]
    exact hfinish ownWalk.stop _ _ hwalk
  exact hend

end Logs

/-! ## Indices -/

/-- What a dump of an offset index does to its state keeps the relation. -/
structure KeptByIndices (path : String) (R : IndexState → IndexState → Prop) : Prop where
  print : ∀ {state own}, R state own → ∀ line : String,
    R { state with out := state.out ++ [line] } { own with out := own.out ++ [line] }
  note : ∀ {state own}, R state own → ∀ offset last,
    R (noteMismatch path offset last state) (noteMismatch path offset last own)

section Indices

variable {path : String} {R : IndexState → IndexState → Prop} (hR : KeptByIndices path R)

include hR

theorem related_dumpEntry (options : IndexOptions) (base : Int) (log : Option (List UInt8))
    (entry : IndexEntry) {state own : IndexState} (h : R state own) :
    R (dumpEntry options path base log state entry)
      (dumpEntry options path base log own entry) := by
  unfold dumpEntry
  split_ifs
  · exact hR.note h _ _
  · exact hR.print (hR.note h _ _) _

theorem twins_dumpOffsetIndex (options : IndexOptions) (name : String)
    (content : Except String (List UInt8)) (log : Except String (Option (List UInt8))) :
    Twins R (dumpOffsetIndex options path name content log)
      (dumpOffsetIndex options path name content log) := by
  have hprint : ∀ line, Twins R
      (modify fun state : IndexState => { state with out := state.out ++ [line] } : IndexDump Unit)
      (modify fun state : IndexState => { state with out := state.out ++ [line] }) := fun line =>
    .modify fun _ _ h => hR.print h line
  refine (Twins.ofExcept _).bind fun base => (Twins.ofExcept _).bind fun data => ?_
  refine .ite (hprint _) (.ite (.throw _) (.ite ?_ ?_))
  · exact (Twins.ofExcept _).bind fun _ => hprint _
  · refine (Twins.ofExcept _).bind fun log => .modify fun state own h => ?_
    rw [dumpEntries_eq_foldl, dumpEntries_eq_foldl]
    generalize logicalEntries (indexEntries data) = entries
    induction entries generalizing state own with
    | nil => exact h
    | cons entry entries ih => exact ih _ _ (related_dumpEntry hR options base log entry h)

end Indices

end KafkaCli.DumpLog
