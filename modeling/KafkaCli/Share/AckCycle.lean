import KafkaCli.Lib.Cycle
import KafkaCli.Share.Consumer

/-!
# Acknowledgements go around the pattern

`acknowledgements_cycle`: whatever is delivered, again or for the first time and in any order, the
records are acknowledged one by one as they were delivered, each with the kind of the pattern that
is as many places after the record's own start as it was renewed since it was last acknowledged
otherwise. So no record is renewed as often as the pattern is long.

The invariant of the loop is `Holds`: the map has the next place of exactly those records whose last
acknowledgement was a renewal. One delivery preserves it (`ends_acknowledgeRecord`), and so do the
two loops.
-/

namespace KafkaCli.Share

open KafkaCli.Cycle Run Session

/-! ## What a session has done -/

/-- The records that were delivered, in their order. -/
def delivered (t : Transcript Reply Fault) : List ShareRecord :=
  t.flatMap fun
    | ⟨.poll _, .ok (some records)⟩ => records
    | _ => []

/-- The acknowledgements that went through, in their order. -/
def acknowledged (t : Transcript Reply Fault) : List (ShareRecord × ShareAcknowledgeType) :=
  t.filterMap fun
    | ⟨.acknowledge record kind, .ok _⟩ => some (record, kind)
    | _ => none

/-- The acknowledgements of one record. -/
def history (t : Transcript Reply Fault) (key : RecordKey) : List ShareAcknowledgeType :=
  ((acknowledged t).filter (·.1.recordKey = key)).map Prod.snd

/-- How often a record was renewed since it was last acknowledged otherwise. -/
def renewals (t : Transcript Reply Fault) (key : RecordKey) : Nat :=
  streak (· = .renew) (history t key)

/-- The place in the pattern where the acknowledgements of a record start. -/
def startOf (pattern : List ShareAcknowledgeType) (key : RecordKey) : Nat :=
  (key.2.2 % pattern.length).toNat

/-- An exchange acknowledges, if anything, the first record that was delivered and not yet
acknowledged, and with the kind whose turn it is. -/
def OnTurn (pattern : List ShareAcknowledgeType) (t : Transcript Reply Fault)
    (exchange : Exchange Reply Fault) : Prop :=
  ∀ record kind, exchange.request = .acknowledge record kind →
    (acknowledged t).map Prod.fst ++ [record] <+: delivered t ∧
      pattern[(startOf pattern record.recordKey + renewals t record.recordKey) % pattern.length]? =
        some kind

/-- The map holds the next place of the records that were renewed. -/
def Holds (pattern : List ShareAcknowledgeType) (indices : RenewIndices)
    (t : Transcript Reply Fault) : Prop :=
  ∀ key, indices[key]? =
    if renewals t key = 0 then none
    else some ((startOf pattern key + renewals t key) % pattern.length)

/-- Nothing that was delivered is still to be acknowledged, except `rest`. -/
def Waiting (rest : List ShareRecord) (t : Transcript Reply Fault) : Prop :=
  (acknowledged t).map Prod.fst ++ rest = delivered t

variable {pattern : List ShareAcknowledgeType} {indices : RenewIndices}
  {t t' : Transcript Reply Fault} {record : ShareRecord} {kind : ShareAcknowledgeType}
  {rest : List ShareRecord} {key : RecordKey}

/-! ## One more exchange -/

theorem acknowledged_append (t t' : Transcript Reply Fault) :
    acknowledged (t ++ t') = acknowledged t ++ acknowledged t' := List.filterMap_append

theorem delivered_append (t t' : Transcript Reply Fault) :
    delivered (t ++ t') = delivered t ++ delivered t' := List.flatMap_append

theorem history_append (t t' : Transcript Reply Fault) (key : RecordKey) :
    history (t ++ t') key = history t key ++ history t' key := by
  simp only [history, acknowledged_append, List.filter_append, List.map_append]

/-- A call that neither polls nor acknowledges. -/
def Aside : Call → Prop
  | .commitSync | .print _ => True
  | _ => False

theorem delivered_aside {call : Call} (h : Aside call) (answer : Except Fault (Reply call)) :
    delivered [⟨call, answer⟩] = [] := by
  cases call <;> simp_all [Aside, delivered]

theorem acknowledged_aside {call : Call} (h : Aside call) (answer : Except Fault (Reply call)) :
    acknowledged [⟨call, answer⟩] = [] := by
  cases call <;> simp_all [Aside, acknowledged]

theorem renewals_of_acknowledged_nil (h : acknowledged t' = []) (key : RecordKey) :
    renewals (t ++ t') key = renewals t key := by
  rw [renewals, history_append, history.eq_1 t', h]
  simp [renewals]

theorem Holds.of_acknowledged_nil (h : Holds pattern indices t) (hnil : acknowledged t' = []) :
    Holds pattern indices (t ++ t') := by
  intro key
  rw [renewals_of_acknowledged_nil hnil]
  exact h key

theorem Waiting.aside {call : Call} (h : Waiting rest t) (hcall : Aside call)
    (answer : Except Fault (Reply call)) : Waiting rest (t ++ [⟨call, answer⟩]) := by
  rw [Waiting, acknowledged_append, delivered_append, acknowledged_aside hcall,
    delivered_aside hcall, List.append_nil, List.append_nil, h]

theorem onTurn_aside {call : Call} (h : Aside call) (answer : Except Fault (Reply call)) :
    OnTurn pattern t ⟨call, answer⟩ := by
  intro record kind hrequest
  rw [show call = .acknowledge record kind from hrequest] at h
  cases h

/-! ## One delivery -/

theorem history_acknowledge (record : ShareRecord) (kind : ShareAcknowledgeType)
    (key : RecordKey) : history [⟨.acknowledge record kind, .ok ()⟩] key =
      if record.recordKey = key then [kind] else [] := by
  by_cases h : record.recordKey = key
  · simp [history, acknowledged, h]
  · simp [history, acknowledged, h]

theorem renewals_acknowledge (record : ShareRecord) (kind : ShareAcknowledgeType)
    (key : RecordKey) : renewals (t ++ [⟨.acknowledge record kind, .ok ()⟩]) key =
      if record.recordKey = key then if kind = .renew then renewals t key + 1 else 0
      else renewals t key := by
  rw [renewals, history_append, history_acknowledge]
  split_ifs with hkey hkind
  · rw [streak_concat, if_pos hkind, renewals]
  · rw [streak_concat, if_neg hkind]
  · rw [List.append_nil, renewals]

theorem Holds.mem_iff (h : Holds pattern indices t) : key ∈ indices ↔ 0 < renewals t key := by
  rw [Std.TreeMap.mem_iff_isSome_getElem?, h key]
  by_cases hzero : renewals t key = 0
  · simp [hzero]
  · simp [hzero, Nat.pos_of_ne_zero hzero]

/-- The index with which a record is looked up is its next place. -/
theorem Holds.getD_insertIfNew (h : Holds pattern indices t) (hne : pattern ≠ []) :
    (indices.insertIfNew record.recordKey (startOf pattern record.recordKey)).getD
        record.recordKey (startOf pattern record.recordKey) =
      (startOf pattern record.recordKey + renewals t record.recordKey) % pattern.length := by
  have hlength : 0 < pattern.length := List.length_pos_iff.2 hne
  have hstart : startOf pattern record.recordKey < pattern.length := by
    rw [startOf]
    have hmod := Int.emod_lt_of_pos record.recordKey.2.2 (Int.natCast_pos.2 hlength)
    omega
  rw [Std.TreeMap.getD_insertIfNew, Std.TreeMap.getD_eq_getD_getElem?, h record.recordKey]
  by_cases hzero : renewals t record.recordKey = 0
  · simp [h.mem_iff, hzero, Nat.mod_eq_of_lt hstart]
  · simp [h.mem_iff, hzero, Nat.pos_of_ne_zero hzero]

/-- The map after an acknowledgement. -/
theorem Holds.acknowledge (h : Holds pattern indices t) (initial : Nat) :
    Holds pattern
      (if kind = .renew then
        (indices.insertIfNew record.recordKey initial).insert record.recordKey
          (((startOf pattern record.recordKey + renewals t record.recordKey) % pattern.length + 1) %
            pattern.length)
      else (indices.insertIfNew record.recordKey initial).erase record.recordKey)
      (t ++ [⟨.acknowledge record kind, .ok ()⟩]) := by
  intro key
  rw [renewals_acknowledge]
  by_cases hkey : record.recordKey = key
  · subst hkey
    by_cases hkind : kind = .renew
    · simp [hkind, Nat.add_assoc]
    · simp [hkind]
  · have hother : ¬ compare record.recordKey key = .eq := by
      simpa using hkey
    rw [if_neg hkey, ← h key]
    split_ifs with hkind
    · rw [Std.TreeMap.getElem?_insert, if_neg hother, Std.TreeMap.getElem?_insertIfNew,
        if_neg (fun hand => hother hand.1)]
    · rw [Std.TreeMap.getElem?_erase, if_neg hother, Std.TreeMap.getElem?_insertIfNew,
        if_neg (fun hand => hother hand.1)]

/-- The record is the one whose turn it is. -/
theorem Waiting.onTurn (h : Waiting (record :: rest) t)
    (hkind : pattern[(startOf pattern record.recordKey + renewals t record.recordKey) %
      pattern.length]? = some kind) (answer : Except Fault Unit) :
    OnTurn pattern t ⟨.acknowledge record kind, answer⟩ := by
  intro record' kind' hrequest
  obtain ⟨rfl, rfl⟩ := Call.acknowledge.inj hrequest
  refine ⟨?_, hkind⟩
  rw [← h]
  simp

theorem Waiting.acknowledge (h : Waiting (record :: rest) t) :
    Waiting rest (t ++ [⟨.acknowledge record kind, .ok ()⟩]) := by
  rw [Waiting, acknowledged_append, delivered_append, ← h]
  simp [acknowledged, delivered]

variable (server : Server Reply Fault)

/-- **One delivery.** The record is acknowledged on its turn, and the map knows its next place. -/
theorem ends_acknowledgeRecord {consumed : Consumed} (hne : pattern ≠ [])
    (h : Holds pattern consumed.renewIndices t) (hwaiting : Waiting (record :: rest) t) :
    Ends (Follows (OnTurn pattern))
      (fun consumed' t' => Holds pattern consumed'.renewIndices t' ∧ Waiting rest t') t
      (acknowledgeRecord server pattern consumed record) := by
  refine .bind_ofExcept ?_
  intro initial hinitial
  have hstart : initial = startOf pattern record.recordKey := initialIndex_ok hinitial
  subst hstart
  simp only [h.getD_insertIfNew hne]
  refine .bind_ofExcept ?_
  intro kind hkind
  refine ends_bind_ask (hwaiting.onTurn (kindAt_ok hkind)) ?_
  intro _
  exact .pure ⟨h.acknowledge _, hwaiting.acknowledge⟩

/-! ## The loops -/

/-- What holds while the records `rest` of a poll are still to be acknowledged. -/
structure Inv (pattern : List ShareAcknowledgeType) (rest : List ShareRecord)
    (indices : RenewIndices) (t : Transcript Reply Fault) : Prop where
  holds : Holds pattern indices t
  waiting : pattern ≠ [] → Waiting rest t

theorem Inv.aside {call : Call} (h : Inv pattern rest indices t) (hcall : Aside call)
    (answer : Except Fault (Reply call)) : Inv pattern rest indices (t ++ [⟨call, answer⟩]) where
  holds := h.holds.of_acknowledged_nil (acknowledged_aside hcall answer)
  waiting hne := (h.waiting hne).aside hcall answer

theorem Inv.poll (h : Inv pattern [] indices t) (timeoutMs : Nat) (records : List ShareRecord) :
    Inv pattern records indices (t ++ [⟨.poll timeoutMs, .ok (some records)⟩]) where
  holds := h.holds.of_acknowledged_nil rfl
  waiting hne := by
    have hall := h.waiting hne
    rw [Waiting, List.append_nil] at hall
    rw [Waiting, acknowledged_append, delivered_append, ← hall]
    simp [acknowledged, delivered]

/-- An interrupt delivers nothing. -/
theorem Inv.interrupt (h : Inv pattern [] indices t) (timeoutMs : Nat) :
    Inv pattern [] indices (t ++ [⟨.poll timeoutMs, .ok none⟩]) where
  holds := h.holds.of_acknowledged_nil rfl
  waiting hne := by
    rw [Waiting, acknowledged_append, delivered_append, ← h.waiting hne]
    simp [acknowledged, delivered]

/-- A call aside changes nothing for the rest of the program. -/
theorem ends_bind_aside {α : Type} {P : α → Transcript Reply Fault → Prop} {call : Call}
    {next : Reply call → Command α} (hcall : Aside call) (h : Inv pattern rest indices t)
    (hnext : ∀ reply t', Inv pattern rest indices t' →
      Ends (Follows (OnTurn pattern)) P t' (next reply)) :
    Ends (Follows (OnTurn pattern)) P t (ask server call >>= next) := by
  refine ends_bind_ask (onTurn_aside hcall) ?_
  intro reply
  exact hnext reply _ (h.aside hcall _)

theorem ends_aside {call : Call} (hcall : Aside call) (h : Inv pattern rest indices t) :
    Ends (Follows (OnTurn pattern)) (fun _ t' => Inv pattern rest indices t') t
      (ask server call) := by
  rw [← bind_pure (ask server call)]
  exact ends_bind_aside server hcall h fun _ _ hinv => .pure hinv

theorem ends_consumeRecord (verbose : Bool) {consumed : Consumed}
    (h : Inv pattern (record :: rest) consumed.renewIndices t) :
    Ends (Follows (OnTurn pattern)) (fun consumed' t' => Inv pattern rest consumed'.renewIndices t')
      t (consumeRecord server pattern verbose consumed record) := by
  have hnext : ∀ after (consumed : Consumed),
      Inv pattern (record :: rest) consumed.renewIndices after →
      Ends (Follows (OnTurn pattern))
        (fun consumed' t' => Inv pattern rest consumed'.renewIndices t') after
        (if pattern.isEmpty then pure consumed
          else acknowledgeRecord server pattern consumed record) := by
    intro after consumed hinv
    refine Ends.ite ?_ ?_
    · intro hempty
      exact .pure ⟨hinv.holds, fun hne => absurd (List.isEmpty_iff.1 hempty) hne⟩
    · intro hne
      have hne : pattern ≠ [] := fun heq => hne (List.isEmpty_iff.2 heq)
      refine (ends_acknowledgeRecord server hne hinv.holds (hinv.waiting hne)).mono ?_
      intro consumed' t' ⟨hholds, hwaiting⟩
      exact ⟨hholds, fun _ => hwaiting⟩
  rw [consumeRecord]
  refine Ends.ite ?_ ?_
  · intro _
    exact ends_bind_aside server trivial h fun _ t' hinv => hnext t' _ hinv
  · intro _
    exact hnext _ _ h

theorem ends_commitFailure (h : Inv pattern rest indices t) :
    Ends (Follows (OnTurn pattern)) (fun _ t' => Inv pattern rest indices t') t
      (commitFailure server) := by
  refine .tryCatch ?_ ?_
  · exact ends_bind_aside server trivial h fun _ _ hinv => .pure hinv
  · intro fault after hfailed
    have hask : (ask server .commitSync).run t = .error fault after := by
      rcases bind_eq_error.1 hfailed with hask | ⟨_, _, -, hpure⟩
      · exact hask
      · cases hpure
    cases fault with
    | panicked => exact .throw _
    | failed error =>
      obtain ⟨-, rfl⟩ := ask_eq_error.1 hask
      exact .pure (h.aside (show Aside .commitSync from trivial) _)

theorem ends_commitRecords (count : Nat) (summaries : List PartitionSummary)
    (ackCounts : Std.TreeMap String Int) (h : Inv pattern rest indices t) :
    Ends (Follows (OnTurn pattern)) (fun _ t' => Inv pattern rest indices t') t
      (commitRecords server pattern count summaries ackCounts) := by
  refine (ends_commitFailure server h).bind ?_
  intro failure after hinv
  cases failure with
  | none => exact ends_aside server (show Aside (.print _) from trivial) hinv
  | some error => exact ends_bind_aside server trivial hinv fun _ _ _ => .throw _

theorem ends_consumeRecords {verbose : Bool} {state : RunState} (records : List ShareRecord)
    (h : Inv pattern records state.renewIndices t) :
    Ends (Follows (OnTurn pattern)) (fun next t' => Inv pattern [] next.renewIndices t') t
      (consumeRecords server pattern verbose state records) := by
  rw [consumeRecords]
  refine Ends.ite ?_ ?_
  · intro hempty
    rw [List.isEmpty_iff.1 hempty] at h
    exact .pure h
  · intro _
    have hloop : Ends (Follows (OnTurn pattern))
        (fun (consumed : Consumed) t' => Inv pattern [] consumed.renewIndices t') t
        (records.foldlM (consumeRecord server pattern verbose) (.start state.renewIndices)) :=
      Ends.foldlM
        (I := fun rest (consumed : Consumed) t' => Inv pattern rest consumed.renewIndices t')
        (fun record rest consumed after hinv => ends_consumeRecord server verbose hinv) h
    refine hloop.bind ?_
    intro consumed after hinv
    refine ends_bind_aside server trivial hinv ?_
    intro _ printed hinv
    refine (ends_commitRecords server _ _ _ hinv).bind ?_
    intro _ committed hinv
    refine .bind_ofExcept ?_
    intro _ _
    exact .pure hinv

/-- What holds when the loop has returned: nothing is still to be acknowledged, and the map is right
where the loop would go on. -/
structure Settled (pattern : List ShareAcknowledgeType) (next : Option RunState)
    (t : Transcript Reply Fault) : Prop where
  waiting : pattern ≠ [] → Waiting [] t
  inv : ∀ state, next = some state → Inv pattern [] state.renewIndices t

theorem Inv.settled (h : Inv pattern [] indices t) : Settled pattern none t where
  waiting := h.waiting
  inv state hstate := by cases hstate

theorem Inv.settled_some {state : RunState} (h : Inv pattern [] state.renewIndices t) :
    Settled pattern (some state) t where
  waiting := h.waiting
  inv state' hstate := by
    cases hstate
    exact h

/-- **Every run** keeps the invariant, whatever is polled. -/
theorem ends_runVerifiableShareConsumer (maxMessages : Int) (verbose : Bool) (polls : Nat)
    {state : RunState} (h : Inv pattern [] state.renewIndices t) :
    Ends (Follows (OnTurn pattern)) (Settled pattern) t
      (runVerifiableShareConsumer server maxMessages pattern verbose polls state) := by
  induction polls generalizing state t with
  | zero => exact .pure h.settled_some
  | succ polls ih =>
    rw [runVerifiableShareConsumer]
    refine Ends.ite ?_ ?_
    · intro _
      refine ends_bind_ask (fun answer => ?_) ?_
      · intro record kind hrequest
        cases hrequest
      · intro polled
        cases polled with
        | none =>
          refine ends_bind_aside server trivial (h.interrupt 5000) ?_
          intro _ _ hinv
          exact .pure hinv.settled
        | some records =>
          refine (ends_consumeRecords server records (h.poll 5000 records)).bind ?_
          intro next after hinv
          exact ih hinv
    · intro _
      exact .pure h.settled

/-! ## The acknowledgements of a session -/

/-- The acknowledgements of every record go around the pattern. -/
theorem visits_of_follows (h : Follows (OnTurn pattern) [] t) (key : RecordKey) :
    Visits pattern (· = .renew) (startOf pattern key) (history t key) := by
  induction h with
  | refl => exact .nil
  | @tail before after _ hstep ih =>
    obtain ⟨⟨request, answer⟩, hturn, rfl⟩ := hstep
    rw [history_append]
    cases request with
    | acknowledge record kind =>
      cases answer with
      | error fault => simpa [history, acknowledged] using ih
      | ok u =>
        rw [history_acknowledge]
        split_ifs with hkey
        · subst hkey
          exact ih.concat (hturn record kind rfl).2
        · rwa [List.append_nil]
    | poll timeoutMs => simpa [history, acknowledged] using ih
    | commitSync => simpa [history, acknowledged] using ih
    | print event => simpa [history, acknowledged] using ih

/-- The map knows exactly the records whose last acknowledgement was a renewal, and its indices
are those of the pattern. -/
structure Kept (pattern : List ShareAcknowledgeType) (indices : RenewIndices)
    (t : Transcript Reply Fault) : Prop where
  mem_iff : ∀ key : RecordKey, key ∈ indices ↔ (history t key).getLast? = some .renew
  lt_length : ∀ (key : RecordKey) (index : Nat), indices[key]? = some index →
    index < pattern.length

theorem Holds.kept (h : Holds pattern indices t) (hfollows : Follows (OnTurn pattern) [] t) :
    Kept pattern indices t where
  mem_iff key := by
    rw [h.mem_iff, renewals, streak_pos_iff]
    simp
  lt_length key index hindex := by
    rw [h key] at hindex
    split_ifs at hindex with hzero
    have hlength : pattern.length ≠ 0 := by
      intro hnil
      obtain ⟨kind, hkind, -⟩ :=
        (visits_of_follows hfollows key).at?_of_lt_streak (Nat.pos_of_ne_zero hzero)
      simp [at?, List.length_eq_zero_iff.1 hnil] at hkind
    rw [← Option.some.inj hindex]
    exact Nat.mod_lt _ (Nat.pos_of_ne_zero hlength)

/-- A run of the loop from its beginning. -/
def consumerRun (maxMessages : Int) (pattern : List ShareAcknowledgeType) (verbose : Bool)
    (polls : Nat) : EStateM.Result Fault (Transcript Reply Fault) (Option RunState) :=
  (runVerifiableShareConsumer server maxMessages pattern verbose polls .start).run []

/-- **Acknowledgements go around the pattern.** In every run with an accepted pattern, each
acknowledgement is of the first record delivered and not yet acknowledged, with the kind whose turn
it is; no record is renewed as often in a row as the pattern is long; when the run is over, every
delivery has been acknowledged; and between two records, as between two polls, the map knows the
records that were renewed. -/
theorem acknowledgements_cycle (value : Option String) (pattern : List ShareAcknowledgeType)
    (maxMessages : Int) (verbose : Bool) (polls : Nat) (h : parseAckPattern value = .ok pattern) :
    (∀ before exchange,
      before ++ [exchange] <+: final (consumerRun server maxMessages pattern verbose polls) →
        OnTurn pattern before exchange) ∧
    (pattern ≠ [] → ∀ t, t <+: final (consumerRun server maxMessages pattern verbose polls) →
      ∀ key, renewals t key < pattern.length) ∧
    ∀ next t, consumerRun server maxMessages pattern verbose polls = .ok next t →
      (pattern ≠ [] → (acknowledged t).map Prod.fst = delivered t) ∧
      ∀ state, next = some state →
        Kept pattern state.renewIndices t ∧
        ∀ (records later : List ShareRecord) (consumed : Consumed) (t' : Transcript Reply Fault),
          (records.foldlM (consumeRecord server pattern verbose) (.start state.renewIndices)).run
              (t ++ [⟨.poll 5000, .ok (some (records ++ later))⟩]) = .ok consumed t' →
            Kept pattern consumed.renewIndices t' := by
  have hstart : Inv pattern [] RunState.start.renewIndices [] := by
    refine ⟨?_, fun _ => rfl⟩
    intro key
    rfl
  have hrun := ends_runVerifiableShareConsumer server maxMessages verbose polls hstart
  have hfollows : Follows (OnTurn pattern) []
      (final (consumerRun server maxMessages pattern verbose polls)) := hrun.moves
  refine ⟨follows_nil_iff.1 hfollows, ?_, ?_⟩
  · intro hne t hstart key
    have hvisits := visits_of_follows (hfollows.initial hstart) key
    exact hvisits.streak_lt (parseAckPattern_ok h hne)
  · intro next t hresult
    rw [hresult, final_ok] at hfollows
    have hsettled : Settled pattern next t := hrun.returns _ _ hresult
    constructor
    · intro hne
      rw [← hsettled.waiting hne, List.append_nil]
    · intro state hstate
      have hinv := hsettled.inv state hstate
      refine ⟨hinv.holds.kept hfollows, ?_⟩
      intro records later consumed t' hloop
      have hpolled : Inv pattern (records ++ later) (Consumed.start state.renewIndices).renewIndices
          (t ++ [⟨.poll 5000, .ok (some (records ++ later))⟩]) := hinv.poll 5000 _
      have hends := Ends.foldlM
        (I := fun rest (consumed : Consumed) t' =>
          Inv pattern (rest ++ later) consumed.renewIndices t')
        (fun record rest consumed after hinv => ends_consumeRecord server verbose hinv)
        hpolled
      have hpoll : Follows (OnTurn pattern) t
          (t ++ [⟨.poll 5000, .ok (some (records ++ later))⟩]) := by
        refine .single ?_
        intro record kind hrequest
        cases hrequest
      have hmoves := hends.moves.of_ok hloop
      exact (hends.returns _ _ hloop).holds.kept ((hfollows.trans hpoll).trans hmoves)

/-- A record is renewed and, delivered again, accepted. -/
def renewedOnce : ShareRecord :=
  { topic := "orders", partition := 0, offset := 4, key := none, value := none }

/-- A share group that delivers the same record with every poll. -/
def redelivering : Server Reply Fault := fun _ call =>
  match call with
  | .poll _ => .ok (some [renewedOnce])
  | .acknowledge _ _ | .commitSync | .print _ => .ok ()

/-- In three polls the record is renewed, accepted and, taken up anew, renewed. -/
theorem acknowledgements_cycle_redelivering :
    let run := consumerRun redelivering (-1) [.renew, .accept] false 3
    acknowledged (final run) =
        [(renewedOnce, .renew), (renewedOnce, .accept), (renewedOnce, .renew)] ∧
      delivered (final run) = [renewedOnce, renewedOnce, renewedOnce] ∧
      (∀ t, t <+: final run → ∀ key, renewals t key < 2) ∧
      ∀ next t, run = .ok next t → (acknowledged t).map Prod.fst = delivered t := by
  have hcycle := acknowledgements_cycle redelivering (some "renew, accept") [.renew, .accept] (-1)
    false 3 (by rfl)
  refine ⟨by decide +kernel, by decide +kernel, hcycle.2.1 (by simp), ?_⟩
  intro next t hrun
  exact (hcycle.2.2 next t hrun).1 (by simp)

end KafkaCli.Share
