import KafkaCli.Lib.Session

/-!
# Programs that send one request

Some of the requests of a session count, such as those that change something at the server. A
program is quiet if it sends none of them. It sends once if it sends one of them at most, whatever
becomes of the run, and exactly one if it returns.
-/

namespace KafkaCli.Session

open Run

variable {Request : Type} {Reply : Request → Type} {ε α β : Type} (counts : Request → Bool)

/-- The exchanges of the requests that count. -/
def counted (t : Transcript Reply ε) : Transcript Reply ε :=
  t.filter fun exchange => counts exchange.request

/-- No request that counts was sent in between. -/
def SameCounted (t t' : Transcript Reply ε) : Prop := counted counts t' = counted counts t

instance : IsPreorder (Transcript Reply ε) (SameCounted counts) where
  refl _ := rfl
  trans _ _ _ h h' := h'.trans h

/-- No run of the program sends a request that counts. -/
abbrev Quiet (program : Client Reply ε α) : Prop := Moves (SameCounted counts) program

/-- Every run of the program sends at most one request that counts, in an exchange that `May` be;
one that returns has sent one, in an exchange that is `Good` as well. -/
def SendsOnce (May Good : Exchange Reply ε → Prop) (program : Client Reply ε α) : Prop :=
  ∀ t, ∃ sent, counted counts (final (program.run t)) = counted counts t ++ sent ∧
    (∀ exchange ∈ sent, May exchange) ∧ sent.length ≤ 1 ∧
    ∀ a t', program.run t = .ok a t' → ∃ exchange, sent = [exchange] ∧ Good exchange

variable {counts} {server : Server Reply ε} {request : Request} {May Good : Exchange Reply ε → Prop}

theorem counted_concat (t : Transcript Reply ε) (exchange : Exchange Reply ε) :
    counted counts (t ++ [exchange]) =
      counted counts t ++ if counts exchange.request then [exchange] else [] := by
  rw [counted, List.filter_append, counted, List.filter_singleton]
  cases counts exchange.request <;> rfl

theorem quiet_ask (h : counts request = false) : Quiet counts (ask server request) := by
  intro t
  rw [final_ask, SameCounted, counted_concat, h, if_neg Bool.false_ne_true, List.append_nil]

/-- First something quiet, then the request. -/
theorem SendsOnce.bind {program : Client Reply ε α} {next : α → Client Reply ε β}
    (hquiet : Quiet counts program) (hnext : ∀ a, SendsOnce counts May Good (next a)) :
    SendsOnce counts May Good (program >>= next) := by
  intro t
  cases hrun : program.run t with
  | ok a t₁ =>
    obtain ⟨sent, hsent, hmay, hlength, hgood⟩ := hnext a t₁
    rw [bind_of_ok hrun]
    have hsame : counted counts t₁ = counted counts t := hquiet.of_ok hrun
    exact ⟨sent, by rw [hsent, hsame], hmay, hlength, hgood⟩
  | error e t₁ =>
    rw [bind_of_error hrun]
    have hsame : counted counts t₁ = counted counts t := hquiet.of_error hrun
    exact ⟨[], by rw [final_error, hsame, List.append_nil], nofun, Nat.zero_le 1, nofun⟩

/-- A computation that asks nothing, then the request. -/
theorem SendsOnce.bind_ofExcept {x : Except ε α} {next : α → Client Reply ε β}
    (hnext : ∀ a, x = .ok a → SendsOnce counts May Good (next a)) :
    SendsOnce counts May Good (ofExcept x >>= next) := by
  cases hx : x with
  | ok a =>
    intro t
    rw [bind_of_ok (run_ofExcept_ok a t)]
    exact hnext a hx t
  | error e =>
    intro t
    rw [bind_of_error (run_ofExcept_error e t)]
    exact ⟨[], by rw [final_error, List.append_nil], nofun, Nat.zero_le 1, nofun⟩

/-- The request, then something quiet that only returns if the answer was good. -/
theorem SendsOnce.ask_bind {next : Reply request → Client Reply ε β}
    (hcounts : counts request = true) (hmay : ∀ answer, May ⟨request, answer⟩)
    (hquiet : ∀ reply, Quiet counts (next reply))
    (hgood : ∀ reply t b t', (next reply).run t = .ok b t' → Good ⟨request, .ok reply⟩) :
    SendsOnce counts May Good (ask server request >>= next) := by
  intro t
  cases hanswer : server t request with
  | ok reply =>
    rw [bind_of_ok (ask_run_ok hanswer)]
    refine ⟨[⟨request, .ok reply⟩], ?_, fun exchange hmem => ?_, Nat.le_refl 1,
      fun b t' hrun => ⟨_, rfl, hgood reply _ b t' hrun⟩⟩
    · have hsame : counted counts (final ((next reply).run (t ++ [⟨request, .ok reply⟩]))) =
          counted counts (t ++ [⟨request, .ok reply⟩]) := hquiet reply _
      rw [hsame, counted_concat, hcounts, if_pos rfl]
    · rw [List.mem_singleton.1 hmem]
      exact hmay _
  | error e =>
    rw [bind_of_error (ask_run_error hanswer)]
    refine ⟨[⟨request, .error e⟩], ?_, fun exchange hmem => ?_, Nat.le_refl 1, nofun⟩
    · rw [final_error, counted_concat, hcounts, if_pos rfl]
    · rw [List.mem_singleton.1 hmem]
      exact hmay _

/-- The request, and nothing after it. -/
theorem sendsOnce_ask (hcounts : counts request = true) (hmay : ∀ answer, May ⟨request, answer⟩)
    (hgood : ∀ reply, Good ⟨request, .ok reply⟩) :
    SendsOnce counts May Good (ask server request) := by
  have hbind : SendsOnce counts May Good (ask server request >>= pure) :=
    SendsOnce.ask_bind hcounts hmay (fun reply => .pure reply) fun reply _ _ _ _ => hgood reply
  rwa [bind_pure] at hbind

/-- First the request, then something quiet. -/
theorem SendsOnce.then {program : Client Reply ε α} {next : α → Client Reply ε β}
    (h : SendsOnce counts May Good program) (hquiet : ∀ a, Quiet counts (next a)) :
    SendsOnce counts May Good (program >>= next) := by
  intro t
  obtain ⟨sent, hsent, hmay, hlength, hgood⟩ := h t
  cases hrun : program.run t with
  | ok a t₁ =>
    rw [bind_of_ok hrun]
    rw [hrun, final_ok] at hsent
    have hsame : counted counts (final ((next a).run t₁)) = counted counts t₁ := hquiet a t₁
    exact ⟨sent, hsame.trans hsent, hmay, hlength, fun _ _ _ => hgood a t₁ hrun⟩
  | error e t₁ =>
    rw [bind_of_error hrun]
    rw [hrun, final_error] at hsent
    exact ⟨sent, hsent, hmay, hlength, nofun⟩

end KafkaCli.Session
