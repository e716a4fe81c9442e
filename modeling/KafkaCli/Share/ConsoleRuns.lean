import KafkaCli.Share.Console

/-!
# Runs of the console share consumer

**Theorem (`shareConsole_acknowledges`).** Whatever the group delivers and whatever fails, and
wherever the process is cut off, records are printed in the order of their delivery, each delivery
once at most. An acknowledgement is made of the record that was printed last, or could not be
printed, and with the kind for that; what is committed are the acknowledgements of all records so
far. No run prints more than its maximum.

`Inv` is the invariant of the loop over the records of a poll, and `Ready` that of the loop over the
polls.
-/

namespace KafkaCli.Share.Console

open Run Session

variable {ρ : Type}

/-! ## What a session has done -/

/-- The records that were delivered, in their order. -/
def delivered (t : Transcript (Reply ρ) Fault) : List ρ :=
  t.flatMap fun
    | ⟨.poll, .ok (.records records _)⟩ => records
    | _ => []

/-- The records that were printed, or were to be. -/
def written (t : Transcript (Reply ρ) Fault) : List ρ :=
  t.filterMap fun
    | ⟨.write record, _⟩ => some record
    | _ => none

/-- The acknowledgements that were made, in their order. -/
def acknowledged (t : Transcript (Reply ρ) Fault) : List (ρ × ShareAcknowledgeType) :=
  t.filterMap fun
    | ⟨.acknowledge record kind, _⟩ => some (record, kind)
    | _ => none

/-- The records that are to be acknowledged, with the kind for what became of them: the one that the
options say for a record that was printed, and a rejection for one that could not be. -/
def handled (args : ShareConsumeArgs) (t : Transcript (Reply ρ) Fault) :
    List (ρ × ShareAcknowledgeType) :=
  t.filterMap fun
    | ⟨.write record, .ok _⟩ => some (record, args.acknowledgement)
    | ⟨.write record, .error (.failed _)⟩ =>
      if args.rejectMessageOnError then some (record, .reject) else none
    | _ => none

/-- What a run may ask for, after what has happened. -/
def OnTurn (args : ShareConsumeArgs) (t : Transcript (Reply ρ) Fault)
    (exchange : Exchange (Reply ρ) Fault) : Prop :=
  match exchange.request with
  | .write record =>
    written t ++ [record] <+: delivered t ∧ acknowledged t = handled args t ∧
      shouldConsumeMore args.maxMessages (written t).length = true
  | .acknowledge record kind => handled args t = acknowledged t ++ [(record, kind)]
  | .commitSync =>
    acknowledged t = handled args t ∧ (acknowledged t).map Prod.fst = written t ∧
      (shouldConsumeMore args.maxMessages (written t).length = true → written t = delivered t)
  | _ => True

/-- What holds wherever a run is cut off. -/
structure Orderly (args : ShareConsumeArgs) (t : Transcript (Reply ρ) Fault) : Prop where
  once : written t <+: delivered t
  justified : acknowledged t <+: handled args t
  soon : (handled args t).length ≤ (acknowledged t).length + 1
  limited : ∀ maximum, args.maxMessages = some maximum → maximum ≠ -1 →
    (written t).length ≤ maximum.toNat

/-! ## Invariants -/

/-- What holds while the records `rest` of a poll are still to come. -/
structure Inv (args : ShareConsumeArgs) (rest : List ρ) (received : ℕ)
    (t : Transcript (Reply ρ) Fault) : Prop where
  settled : acknowledged t = handled args t
  every : (handled args t).map Prod.fst = written t
  waiting : written t ++ rest = delivered t
  count : (written t).length = received

/-- What holds between two polls: records are left out only if no more are wanted. -/
structure Ready (args : ShareConsumeArgs) (received : ℕ)
    (t : Transcript (Reply ρ) Fault) : Prop where
  settled : acknowledged t = handled args t
  every : (handled args t).map Prod.fst = written t
  complete : shouldConsumeMore args.maxMessages received = true → written t = delivered t
  count : (written t).length = received

/-- A record is to be acknowledged, and `rest` of the poll is to come. -/
structure Due (args : ShareConsumeArgs) (record : ρ) (kind : ShareAcknowledgeType) (rest : List ρ)
    (received : ℕ) (t : Transcript (Reply ρ) Fault) : Prop where
  next : handled args t = acknowledged t ++ [(record, kind)]
  every : (handled args t).map Prod.fst = written t
  waiting : written t ++ rest = delivered t
  count : (written t).length = received + 1

section Steps

variable {args : ShareConsumeArgs} {rest : List ρ} {received : ℕ} {record : ρ}
  {kind : ShareAcknowledgeType} {t : Transcript (Reply ρ) Fault}

/-- A record is printed. -/
theorem Inv.write (h : Inv args (record :: rest) received t) :
    Due args record args.acknowledgement rest received (t ++ [⟨.write record, .ok ()⟩]) where
  next := by simpa [handled, acknowledged] using h.settled.symm
  every := by simpa [handled, written] using h.every
  waiting := by simpa [written, delivered] using h.waiting
  count := by simpa [written] using h.count

/-- A record could not be printed, and is rejected. -/
theorem Inv.writeFailed (h : Inv args (record :: rest) received t)
    (hreject : args.rejectMessageOnError = true) (error : Error) :
    Due args record .reject rest received (t ++ [⟨.write record, .error (.failed error)⟩]) where
  next := by simpa [handled, acknowledged, hreject] using h.settled.symm
  every := by simpa [handled, written, hreject] using h.every
  waiting := by simpa [written, delivered] using h.waiting
  count := by simpa [written] using h.count

theorem Due.print (h : Due args record kind rest received t) (notice : Notice) :
    Due args record kind rest received (t ++ [⟨.print notice, .ok ()⟩]) where
  next := by simpa [handled, acknowledged] using h.next
  every := by simpa [handled, written] using h.every
  waiting := by simpa [written, delivered] using h.waiting
  count := by simpa [written] using h.count

theorem Due.acknowledge (h : Due args record kind rest received t) :
    Inv args rest (received + 1) (t ++ [⟨.acknowledge record kind, .ok ()⟩]) where
  settled := by simpa [handled, acknowledged] using h.next.symm
  every := by simpa [handled, written] using h.every
  waiting := by simpa [written, delivered] using h.waiting
  count := by simpa [written] using h.count

theorem Inv.ready (h : Inv args rest received t)
    (hrest : shouldConsumeMore args.maxMessages received = true → rest = []) :
    Ready args received t where
  settled := h.settled
  every := h.every
  complete hmore := by
    have hwaiting := h.waiting
    rwa [hrest hmore, List.append_nil] at hwaiting
  count := h.count

/-- Records are delivered. -/
theorem Ready.poll (h : Ready args received t)
    (hmore : shouldConsumeMore args.maxMessages received = true) (records : List ρ)
    (elapsed : Bool) :
    Inv args records received (t ++ [⟨.poll, .ok (.records records elapsed)⟩]) where
  settled := by simpa [handled, acknowledged] using h.settled
  every := by simpa [handled, written] using h.every
  waiting := by simpa [written, delivered] using h.complete hmore
  count := by simpa [written] using h.count

theorem Ready.interrupt (h : Ready args received t) :
    Ready args received (t ++ [⟨.poll, .ok .interrupted⟩]) where
  settled := by simpa [handled, acknowledged] using h.settled
  every := by simpa [handled, written] using h.every
  complete := by simpa [written, delivered] using h.complete
  count := by simpa [written] using h.count

/-- A call that neither polls nor prints nor acknowledges a record. -/
def Aside : Call ρ → Prop
  | .commitSync | .close | .print _ => True
  | _ => False

theorem Ready.aside {call : Call ρ} (h : Ready args received t) (hcall : Aside call)
    (answer : Except Fault (Reply ρ call)) : Ready args received (t ++ [⟨call, answer⟩]) := by
  have hhandled : handled args (t ++ [⟨call, answer⟩]) = handled args t := by
    cases call <;> simp_all [Aside, handled]
  have hwritten : written (t ++ [⟨call, answer⟩]) = written t := by
    cases call <;> simp_all [Aside, written]
  have hacknowledged : acknowledged (t ++ [⟨call, answer⟩]) = acknowledged t := by
    cases call <;> simp_all [Aside, acknowledged]
  have hdelivered : delivered (t ++ [⟨call, answer⟩]) = delivered t := by
    cases call <;> simp_all [Aside, delivered]
  refine ⟨?_, ?_, ?_, ?_⟩
  · rw [hacknowledged, hhandled, h.settled]
  · rw [hhandled, hwritten, h.every]
  · rw [hwritten, hdelivered]
    exact h.complete
  · rw [hwritten, h.count]

theorem Ready.onTurn (h : Ready args received t) (answer : Except Fault Unit) :
    OnTurn args t ⟨.commitSync, answer⟩ := by
  refine ⟨h.settled, ?_, ?_⟩
  · rw [h.settled, h.every]
  · rw [h.count]
    exact h.complete

/-! ## The loops -/

variable (server : Server (Reply ρ) Fault)

/-- Try a call, and go on with what it came to. -/
theorem ends_bind_attempt {α : Type} {P : α → Transcript (Reply ρ) Fault → Prop}
    {call : Call ρ} {next : Result (Reply ρ call) → Command ρ α}
    (hmay : ∀ answer, OnTurn args t ⟨call, answer⟩)
    (hok : ∀ reply, Ends (Follows (OnTurn args)) P (t ++ [⟨call, .ok reply⟩]) (next (.ok reply)))
    (herror : ∀ error, Ends (Follows (OnTurn args)) P (t ++ [⟨call, .error (.failed error)⟩])
      (next (.error error))) :
    Ends (Follows (OnTurn args)) P t (attempt (ask server call) >>= next) := by
  have htried : Ends (Follows (OnTurn args)) (fun result after =>
      (∃ reply, result = .ok reply ∧ after = t ++ [⟨call, .ok reply⟩]) ∨
        ∃ error, result = .error error ∧ after = t ++ [⟨call, .error (.failed error)⟩])
      t (attempt (ask server call)) := by
    refine .tryCatch ?_ ?_
    · exact ends_bind_ask hmay fun reply => .pure (.inl ⟨reply, rfl, rfl⟩)
    · intro fault after hfailed
      have hask : (ask server call).run t = .error fault after := by
        rcases bind_eq_error.1 hfailed with hask | ⟨_, _, -, hpure⟩
        · exact hask
        · cases hpure
      cases fault with
      | panicked => exact .throw _
      | failed error => exact .pure (.inr ⟨error, rfl, (ask_eq_error.1 hask).2⟩)
  refine htried.bind ?_
  rintro result after (⟨reply, rfl, rfl⟩ | ⟨error, rfl, rfl⟩)
  · exact hok reply
  · exact herror error

/-- **One record** is printed, or could not be, and is acknowledged. -/
theorem ends_handleRecord (h : Inv args (record :: rest) received t)
    (hmore : shouldConsumeMore args.maxMessages received = true) :
    Ends (Follows (OnTurn args)) (fun received' t' => Inv args rest received' t') t
      (handleRecord server args received record) := by
  have hturn : written t ++ [record] <+: delivered t ∧ acknowledged t = handled args t ∧
      shouldConsumeMore args.maxMessages (written t).length = true := by
    refine ⟨⟨rest, ?_⟩, h.settled, by rwa [h.count]⟩
    rw [← h.waiting, List.append_assoc, List.singleton_append]
  refine ends_bind_attempt server (fun _ => hturn) ?_ ?_
  · intro _
    exact ends_bind_ask (fun _ => h.write.next) fun _ => .pure h.write.acknowledge
  · intro error
    dsimp only
    split_ifs with hreject
    · have hdue := (h.writeFailed hreject error).print (.rejecting error)
      refine ends_bind_ask (fun _ => trivial) fun _ => ?_
      exact ends_bind_ask (fun _ => hdue.next) fun _ => .pure hdue.acknowledge
    · exact .throw _

/-- **The records of a poll.** -/
theorem ends_handleRecords (records : List ρ) (h : Inv args records received t) :
    Ends (Follows (OnTurn args)) (fun received' t' => Ready args received' t') t
      (handleRecords server args received records) := by
  induction records generalizing received t with
  | nil => exact .pure (h.ready fun _ => rfl)
  | cons record rest ih =>
    rw [handleRecords]
    refine Ends.ite ?_ ?_
    · intro hmore
      exact (ends_handleRecord server h hmore).bind fun received' t' hinv => ih hinv
    · intro hdone
      exact .pure (h.ready fun hmore => absurd hmore hdone)

/-- The loop is left. -/
theorem Ready.ends_return (h : Ready args received t) :
    Ends (Follows (OnTurn args))
      (fun result t' => ∀ received', result = some received' → Ready args received' t') t
      (pure (some received) : Command ρ _) := by
  refine .pure ?_
  intro received' hreceived
  cases hreceived
  exact h

/-- **The polls**, whatever they bring. -/
theorem ends_consumeShareRecords (polls : ℕ) (h : Ready args received t) :
    Ends (Follows (OnTurn args))
      (fun result t' => ∀ received', result = some received' → Ready args received' t') t
      (consumeShareRecords server args polls received) := by
  induction polls generalizing received t with
  | zero =>
    refine .pure ?_
    intro received' hreceived
    cases hreceived
  | succ polls ih =>
    rw [consumeShareRecords]
    refine Ends.ite ?_ (fun _ => h.ends_return)
    intro hmore
    refine ends_bind_ask (fun _ => trivial) ?_
    intro polled
    cases polled with
    | interrupted => exact h.interrupt.ends_return
    | records records elapsed =>
      have hpolled := h.poll hmore records elapsed
      refine Ends.ite ?_ ?_
      · intro hempty
        have hready := hpolled.ready fun _ => List.isEmpty_iff.1 hempty
        exact Ends.ite (fun _ => hready.ends_return) fun _ => ih hready
      · intro _
        refine (ends_handleRecords server records hpolled).bind ?_
        intro received' after hready
        refine ends_bind_ask hready.onTurn fun reply => ?_
        exact ih (hready.aside (show Aside .commitSync from trivial) _)

/-- What has been printed at the end of a run that goes well. -/
def Closed (args : ShareConsumeArgs) (t : Transcript (Reply ρ) Fault) : Prop :=
  ∃ received, Ready args received t ∧ ⟨.print (.processed received), .ok ()⟩ ∈ t

/-- **The end of a run.** -/
theorem ends_closeConsumer {run : Result ℕ}
    (h : ∀ received, run = .ok received → Ready args received t) :
    Ends (Follows (OnTurn args)) (fun _ t' => Closed args t') t
      (closeConsumer server args run) := by
  -- what follows the notice
  have hresult : ∀ (closed : Result Unit) after,
      (∀ received, run = .ok received → Ready args received after ∧
        ⟨.print (.processed received), .ok ()⟩ ∈ after) →
      Ends (Follows (OnTurn args)) (fun _ t' => Closed args t') after
        (ofExcept (closedResult run closed) : Command ρ Unit) := by
    intro closed after hafter
    cases run with
    | error error => exact .throw _
    | ok received =>
      cases closed with
      | error error => exact .throw _
      | ok _ => exact .pure ⟨received, hafter received rfl⟩
  have hnotices : ∀ (closed : Result Unit) after,
      (∀ received, run = .ok received → Ready args received after) →
      Ends (Follows (OnTurn args)) (fun _ t' => Closed args t') after (do
        ask server (.print (.processed (run.toOption.getD 0)))
        if args.enableSystestEvents then ask server (.print .shutdownComplete)
        ofExcept (closedResult run closed)) := by
    intro closed after hafter
    refine ends_bind_ask (fun _ => trivial) fun _ => ?_
    have hprinted : ∀ received, run = .ok received →
        Ready args received
          (after ++ [⟨.print (.processed (run.toOption.getD 0)), .ok ()⟩]) ∧
        ⟨.print (.processed received), .ok ()⟩ ∈
          after ++ [⟨.print (.processed (run.toOption.getD 0)), .ok ()⟩] := by
      intro received hrun
      refine ⟨(hafter received hrun).aside (show Aside (.print _) from trivial) _, ?_⟩
      rw [hrun]
      exact List.mem_append_right _ (List.mem_singleton_self _)
    refine Ends.ite ?_ ?_
    · intro _
      refine ends_bind_ask (fun _ => trivial) fun _ => hresult closed _ ?_
      intro received hrun
      obtain ⟨hready, hmem⟩ := hprinted received hrun
      exact ⟨hready.aside (show Aside (.print _) from trivial) _, List.mem_append_left _ hmem⟩
    · intro _
      exact hresult closed _ hprinted
  refine ends_bind_attempt server (fun _ => trivial) ?_ ?_
  · intro reply
    exact hnotices _ _ fun received hrun => (h received hrun).aside (show Aside .close from trivial) _
  · intro error
    exact hnotices _ _ fun received hrun => (h received hrun).aside (show Aside .close from trivial) _

theorem ready_nil (args : ShareConsumeArgs) :
    Ready args 0 ([] : Transcript (Reply ρ) Fault) :=
  ⟨rfl, rfl, fun _ => rfl, rfl⟩

/-- **A launch.** -/
theorem ends_shareConsume (args : ShareConsumeArgs) (polls : ℕ) :
    Ends (Follows (OnTurn args)) (fun result t' => result = some () → Closed args t') []
      (shareConsume server args polls) := by
  have hloop : Ends (Follows (OnTurn args)) (fun result t' => ∀ received,
      result = .ok (some received) → Ready args received t') []
      (attempt (consumeShareRecords server args polls 0)) := by
    have hpolls := ends_consumeShareRecords server polls (ready_nil args)
    refine .tryCatch ?_ ?_
    · refine hpolls.bind ?_
      intro result after hafter
      refine .pure ?_
      intro received hreceived
      exact hafter received (Except.ok.inj hreceived)
    · intro fault after _
      cases fault with
      | panicked => exact .throw _
      | failed error =>
        refine .pure ?_
        intro received hreceived
        cases hreceived
  have hclose : ∀ (run : Result ℕ) after,
      (∀ received, run = .ok received → Ready args received after) →
      Ends (Follows (OnTurn args)) (fun result t' => result = some () → Closed args t') after
        (some <$> closeConsumer server args run) := by
    intro run after hafter
    rw [map_eq_pure_bind]
    refine (ends_closeConsumer server hafter).bind ?_
    intro _ _ hclosed
    exact .pure fun _ => hclosed
  refine hloop.bind ?_
  intro result after hafter
  cases result with
  | error error => exact hclose _ after fun received hrun => by cases hrun
  | ok result =>
    cases result with
    | none => exact .pure fun heq => by cases heq
    | some received =>
      refine hclose _ after ?_
      intro received' hrun
      obtain rfl := Except.ok.inj hrun
      exact hafter received rfl

end Steps

/-! ## The sessions -/

section Sessions

variable {args : ShareConsumeArgs} {t : Transcript (Reply ρ) Fault}
  {exchange : Exchange (Reply ρ) Fault}

/-- Fewer than the maximum were printed. -/
theorem lt_of_shouldConsumeMore {maximum : Int} {received : ℕ} (hlimited : maximum ≠ -1)
    (h : shouldConsumeMore (some maximum) received = true) : received < maximum.toNat := by
  have hless : shouldConsumeMore (some maximum) received = decide (received < maximum) := by
    unfold shouldConsumeMore
    split
    · cases ‹some maximum = none›
    · exact absurd (Option.some.inj ‹_›) hlimited
    · rename_i heq
      rw [Option.some.inj heq]
  have hlt := of_decide_eq_true (hless.symm.trans h)
  omega

/-- One more call that is neither a print nor an acknowledgement of a record. -/
theorem Orderly.of_unchanged (h : Orderly args t) (hwritten : written [exchange] = [])
    (hacknowledged : acknowledged [exchange] = []) (hhandled : handled args [exchange] = []) :
    Orderly args (t ++ [exchange]) := by
  have hwritten' : written (t ++ [exchange]) = written t := by
    rw [written, List.filterMap_append]
    exact (congrArg (written t ++ ·) hwritten).trans (List.append_nil _)
  have hacknowledged' : acknowledged (t ++ [exchange]) = acknowledged t := by
    rw [acknowledged, List.filterMap_append]
    exact (congrArg (acknowledged t ++ ·) hacknowledged).trans (List.append_nil _)
  have hhandled' : handled args (t ++ [exchange]) = handled args t := by
    rw [handled, List.filterMap_append]
    exact (congrArg (handled args t ++ ·) hhandled).trans (List.append_nil _)
  refine ⟨?_, ?_, ?_, ?_⟩
  · rw [hwritten', delivered, List.flatMap_append]
    exact h.once.trans (List.prefix_append _ _)
  · rw [hacknowledged', hhandled']
    exact h.justified
  · rw [hacknowledged', hhandled']
    exact h.soon
  · rw [hwritten']
    exact h.limited

/-- **One exchange** that may be made. -/
theorem Orderly.turn (h : Orderly args t) (hturn : OnTurn args t exchange) :
    Orderly args (t ++ [exchange]) := by
  obtain ⟨call, answer⟩ := exchange
  cases call with
  | write record =>
    obtain ⟨hnext, hsettled, hmore⟩ := hturn
    have hdelivered : delivered (t ++ [⟨.write record, answer⟩]) = delivered t := by
      simp [delivered]
    have hwritten : written (t ++ [⟨.write record, answer⟩]) = written t ++ [record] := by
      simp [written]
    have hacknowledged : acknowledged (t ++ [⟨.write record, answer⟩]) = acknowledged t := by
      simp [acknowledged]
    have hhandled : handled args (t ++ [⟨.write record, answer⟩]) =
        handled args t ++ handled args [⟨.write record, answer⟩] := List.filterMap_append
    have hone : (handled args [⟨.write record, answer⟩]).length ≤ 1 := List.length_filterMap_le _ _
    refine ⟨?_, ?_, ?_, ?_⟩
    · rwa [hwritten, hdelivered]
    · rw [hacknowledged, hhandled, hsettled]
      exact List.prefix_append _ _
    · rw [hacknowledged, hhandled, List.length_append, hsettled]
      omega
    · intro maximum hmaximum hlimited
      rw [hmaximum] at hmore
      have hlt := lt_of_shouldConsumeMore hlimited hmore
      rw [hwritten, List.length_append, List.length_singleton]
      omega
  | acknowledge record kind =>
    have hnext : handled args t = acknowledged t ++ [(record, kind)] := hturn
    have hacknowledged : acknowledged (t ++ [⟨.acknowledge record kind, answer⟩]) =
        handled args t := by
      rw [hnext]
      simp [acknowledged]
    have hhandled : handled args (t ++ [⟨.acknowledge record kind, answer⟩]) = handled args t := by
      simp [handled]
    have hwritten : written (t ++ [⟨.acknowledge record kind, answer⟩]) = written t := by
      simp [written]
    have hdelivered : delivered (t ++ [⟨.acknowledge record kind, answer⟩]) = delivered t := by
      simp [delivered]
    refine ⟨?_, ?_, ?_, ?_⟩
    · rw [hwritten, hdelivered]
      exact h.once
    · rw [hacknowledged, hhandled]
    · rw [hacknowledged, hhandled]
      exact Nat.le_succ _
    · rw [hwritten]
      exact h.limited
  | poll => exact h.of_unchanged rfl rfl rfl
  | commitSync => exact h.of_unchanged rfl rfl rfl
  | close => exact h.of_unchanged rfl rfl rfl
  | print notice => exact h.of_unchanged rfl rfl rfl

theorem orderly_of_follows (h : Follows (OnTurn args) [] t) : Orderly args t := by
  induction h with
  | refl => exact ⟨List.nil_prefix, List.nil_prefix, Nat.zero_le _, fun _ _ _ => Nat.zero_le _⟩
  | @tail before after _ hstep ih =>
    obtain ⟨exchange, hturn, rfl⟩ := hstep
    exact ih.turn hturn

end Sessions

/-- **The records of a launch** are printed once at most, in their order, and acknowledged for what
became of them. -/
theorem shareConsole_acknowledges (server : Server (Reply ρ) Fault)
    (args : ShareConsumeArgs) (polls : ℕ) :
    (∀ before exchange,
      before ++ [exchange] <+: final ((shareConsume server args polls).run []) →
        OnTurn args before exchange) ∧
    (∀ t, t <+: final ((shareConsume server args polls).run []) → Orderly args t) ∧
    ∀ t, (shareConsume server args polls).run [] = .ok (some ()) t →
      acknowledged t = handled args t ∧ (acknowledged t).map Prod.fst = written t ∧
        ⟨.print (.processed (written t).length), .ok ()⟩ ∈ t := by
  have hrun := ends_shareConsume server args polls
  have hfollows : Follows (OnTurn args) [] (final ((shareConsume server args polls).run [])) :=
    hrun.moves
  refine ⟨follows_nil_iff.1 hfollows, ?_, ?_⟩
  · intro t hstart
    exact orderly_of_follows (hfollows.initial hstart)
  · intro t hresult
    obtain ⟨received, hready, hmem⟩ := hrun.returns _ _ hresult rfl
    refine ⟨hready.settled, ?_, ?_⟩
    · rw [hready.settled, hready.every]
    · rw [hready.count]
      exact hmem

/-- Two records are delivered at once, of which the second one cannot be printed. -/
def unprintable : Server (Reply String) Fault := fun _ call =>
  match call with
  | .poll => .ok (.records ["a", "b"] false)
  | .write record => if record = "b" then .error (.failed (.config "broken pipe")) else .ok ()
  | .acknowledge _ _ | .commitSync | .close | .print _ => .ok ()

example : acknowledged (final ((shareConsume unprintable
    ⟨false, false, true, some 2, none, false⟩ 3).run [])) = [("a", .accept), ("b", .reject)] := by
  decide +kernel

end KafkaCli.Share.Console
