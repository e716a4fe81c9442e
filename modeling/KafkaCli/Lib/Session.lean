import KafkaCli.Lib.Run
import Mathlib.Data.List.Infix
import Mathlib.Logic.Relation

/-!
# Sessions with a server

A client asks a server one thing after the other, and the transcript of the session holds every
request with its answer. The server may answer according to all that happened before, or fail.

* `Follows may` — a transcript grows by exchanges that were allowed when they took place.
* `exists_of_follows` — an exchange of the session was allowed by what happened before it.
-/

namespace KafkaCli.Session

open Run

variable {Request : Type} {Reply : Request → Type} {ε : Type}

/-- A request with what came back. -/
structure Exchange (Reply : Request → Type) (ε : Type) where
  request : Request
  answer : Except ε (Reply request)

/-- The exchanges of a session, in their order. -/
abbrev Transcript (Reply : Request → Type) (ε : Type) := List (Exchange Reply ε)

/-- What a server answers, given what happened before. -/
abbrev Server (Reply : Request → Type) (ε : Type) :=
  Transcript Reply ε → (request : Request) → Except ε (Reply request)

/-- A program that talks to a server. -/
abbrev Client (Reply : Request → Type) (ε : Type) := EStateM ε (Transcript Reply ε)

/-- Send a request and wait for its answer. -/
def ask (server : Server Reply ε) (request : Request) : Client Reply ε (Reply request) := do
  let before ← get
  set (before ++ [⟨request, server before request⟩])
  ofExcept (server before request)

variable {server : Server Reply ε} {request : Request} {before after : Transcript Reply ε}

theorem ask_run_ok {reply : Reply request} (h : server before request = .ok reply) :
    (ask server request).run before = .ok reply (before ++ [⟨request, .ok reply⟩]) := by
  simp [ask, h]

theorem ask_run_error {e : ε} (h : server before request = .error e) :
    (ask server request).run before = .error e (before ++ [⟨request, .error e⟩]) := by
  simp [ask, h]

theorem final_ask : final ((ask server request).run before) =
    before ++ [⟨request, server before request⟩] := by
  cases h : server before request with
  | ok reply => rw [ask_run_ok h, final_ok]
  | error e => rw [ask_run_error h, final_error]

/-- An answer is the last thing in the transcript. -/
theorem ask_eq_ok {reply : Reply request} :
    (ask server request).run before = .ok reply after ↔
      server before request = .ok reply ∧ after = before ++ [⟨request, .ok reply⟩] := by
  cases h : server before request with
  | ok reply' =>
    rw [ask_run_ok h, EStateM.Result.ok.injEq, Except.ok.injEq]
    refine ⟨fun ⟨hreply, hafter⟩ => ?_, fun ⟨hreply, hafter⟩ => ?_⟩
    · subst hreply
      exact ⟨rfl, hafter.symm⟩
    · subst hreply
      exact ⟨rfl, hafter.symm⟩
  | error e => simp [ask_run_error h]

theorem ask_eq_error {e : ε} : (ask server request).run before = .error e after ↔
    server before request = .error e ∧ after = before ++ [⟨request, .error e⟩] := by
  cases h : server before request with
  | ok reply => simp [ask_run_ok h]
  | error e' =>
    rw [ask_run_error h, EStateM.Result.error.injEq, Except.error.injEq]
    refine ⟨fun ⟨herror, hafter⟩ => ?_, fun ⟨herror, hafter⟩ => ?_⟩
    · subst herror
      exact ⟨rfl, hafter.symm⟩
    · subst herror
      exact ⟨rfl, hafter.symm⟩

/-! ## Allowed exchanges -/

/-- The transcript grows by exchanges that `may` allows after those before them. -/
def Follows (may : Transcript Reply ε → Exchange Reply ε → Prop) :
    Transcript Reply ε → Transcript Reply ε → Prop :=
  Relation.ReflTransGen fun before after => ∃ exchange, may before exchange ∧
    after = before ++ [exchange]

variable {may may' : Transcript Reply ε → Exchange Reply ε → Prop}

instance : IsPreorder (Transcript Reply ε) (Follows may) where
  refl _ := .refl
  trans _ _ _ := .trans

theorem Follows.single {exchange : Exchange Reply ε} (h : may before exchange) :
    Follows may before (before ++ [exchange]) := Relation.ReflTransGen.single ⟨exchange, h, rfl⟩

theorem Follows.mono (h : Follows may before after)
    (hmay : ∀ t exchange, may t exchange → may' t exchange) : Follows may' before after :=
  Relation.ReflTransGen.mono (fun _ _ ⟨exchange, hexchange, hafter⟩ =>
    ⟨exchange, hmay _ _ hexchange, hafter⟩) _ _ h

theorem Follows.isPrefix (h : Follows may before after) : before <+: after := by
  induction h with
  | refl => exact List.prefix_rfl
  | tail _ hstep ih =>
    obtain ⟨exchange, -, rfl⟩ := hstep
    exact ih.trans (List.prefix_append _ _)

/-- The new exchanges are at the end, and each of them was allowed. -/
theorem exists_append_of_follows (h : Follows may before after) :
    ∃ new, after = before ++ new ∧ ∀ exchange ∈ new, ∃ t, may t exchange := by
  induction h with
  | refl => exact ⟨[], by simp, nofun⟩
  | @tail middle after _ hstep ih =>
    obtain ⟨new, rfl, hnew⟩ := ih
    obtain ⟨last, hlast, rfl⟩ := hstep
    refine ⟨new ++ [last], List.append_assoc _ _ _, ?_⟩
    intro exchange hmem
    rcases List.mem_append.1 hmem with hold | hlast'
    · exact hnew exchange hold
    · rw [List.mem_singleton.1 hlast']
      exact ⟨_, hlast⟩

/-- A new exchange was allowed after what had happened until then. -/
theorem exists_of_follows (h : Follows may before after) {exchange : Exchange Reply ε}
    (hmem : exchange ∈ after) :
    exchange ∈ before ∨ ∃ t, before <+: t ∧ t ++ [exchange] <+: after ∧ may t exchange := by
  induction h with
  | refl => exact .inl hmem
  | @tail middle after hfollows hstep ih =>
    obtain ⟨last, hlast, rfl⟩ := hstep
    rcases List.mem_append.1 hmem with hmiddle | hnew
    · rcases ih hmiddle with hold | ⟨t, hbefore, ht, hmay⟩
      · exact .inl hold
      · exact .inr ⟨t, hbefore, ht.trans (List.prefix_append _ _), hmay⟩
    · rw [List.mem_singleton] at hnew
      subst hnew
      exact .inr ⟨middle, Follows.isPrefix hfollows, List.prefix_rfl, hlast⟩

/-- In a session from its beginning, every exchange was allowed by those before it. -/
theorem follows_nil_iff : Follows may [] after ↔
    ∀ t exchange, t ++ [exchange] <+: after → may t exchange := by
  refine ⟨?_, ?_⟩
  · intro h
    induction h with
    | refl =>
      intro t exchange hstart
      simp at hstart
    | @tail middle after _ hstep ih =>
      obtain ⟨last, hlast, rfl⟩ := hstep
      intro t exchange hstart
      rcases List.prefix_concat_iff.1 hstart with heq | hold
      · obtain ⟨rfl, hexchange⟩ := List.append_inj' heq rfl
        rw [List.cons.injEq] at hexchange
        rwa [hexchange.1]
      · exact ih t exchange hold
  · intro h
    induction after using List.reverseRecOn with
    | nil => exact .refl
    | append_singleton middle last ih =>
      refine .tail (ih ?_) ⟨last, h middle last List.prefix_rfl, rfl⟩
      intro t exchange hstart
      exact h t exchange (hstart.trans (List.prefix_append _ _))

theorem Follows.initial (h : Follows may [] after) (hstart : before <+: after) :
    Follows may [] before :=
  follows_nil_iff.2 fun t exchange ht => follows_nil_iff.1 h t exchange (ht.trans hstart)

theorem moves_ask (h : ∀ t answer, may t ⟨request, answer⟩) :
    Moves (Follows may) (ask server request) := by
  intro t
  rw [final_ask]
  exact .single (h t _)

theorem movesFrom_ask (h : ∀ answer, may before ⟨request, answer⟩) :
    MovesFrom (Follows may) before (ask server request) := by
  rw [MovesFrom, final_ask]
  exact .single (h _)

/-- Ask, and go on with any answer that may come. -/
theorem ends_bind_ask {α : Type} {P : α → Transcript Reply ε → Prop}
    {f : Reply request → Client Reply ε α} (hmay : ∀ answer, may before ⟨request, answer⟩)
    (hf : ∀ reply, Ends (Follows may) P (before ++ [⟨request, .ok reply⟩]) (f reply)) :
    Ends (Follows may) P before (ask server request >>= f) := by
  have hask : Ends (Follows may) (fun reply after => after = before ++ [⟨request, .ok reply⟩])
      before (ask server request) :=
    ⟨movesFrom_ask hmay, fun _ _ hrun => (ask_eq_ok.1 hrun).2⟩
  refine hask.bind ?_
  intro reply _ hafter
  rw [hafter]
  exact hf reply

/-- A loop whose steps each append an exchange, where they return. -/
theorem forM_append_of_ok {ι : Type} {f : ι → Client Reply ε PUnit} {g : ι → Exchange Reply ε}
    {l : List ι} (hf : ∀ x ∈ l, ∀ t t', (f x).run t = .ok ⟨⟩ t' → t' = t ++ [g x])
    (h : (forM l f).run before = .ok ⟨⟩ after) : after = before ++ l.map g := by
  induction l generalizing before with
  | nil =>
    cases h
    simp
  | cons x l ih =>
    obtain ⟨t, hx, hl⟩ := forM_cons_eq_ok.1 h
    rw [ih (fun y hy => hf y (List.mem_cons_of_mem x hy)) hl, hf x List.mem_cons_self _ _ hx,
      List.append_assoc]
    rfl

end KafkaCli.Session
