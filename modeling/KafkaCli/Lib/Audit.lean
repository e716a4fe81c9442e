import KafkaCli.Lib.Wire

/-!
# Decoders on hostile input

An `Audited` decoder keeps a log of the reads that a short buffer would make panic, of the
iterations of its loops, and of the reservations that it makes for elements still to come.

`Audited.outcome` is the run of such a decoder under an allocator, which may refuse a reservation
and so end the process.

`Audits` says that it is the audited version of a plain decoder: it has its results, it does not
panic, each event of its log is safe, and where it returns every reservation was for as many
elements as there were bytes. A record is audited field by field (`Audits.bind`), and a fixed-width
read only behind a check of the length (`Audits.require`, `Audits.read`). A loop is safe whose
iterations each take a byte (`Audits.times`, `Audits.loop`).
-/

namespace KafkaCli.Wire

variable {ε α β σ : Type}

/-- What a decoder does on its way, with the number of bytes that were left: for an iteration, in
front of its loop. -/
inductive Event
  | read (width remaining : ℕ)
  | iterate (index remaining : ℕ)
  | reserve (count remaining : ℕ)
  deriving DecidableEq, Repr

/-- A read finds its bytes, and a loop has begun at most one iteration more than there were bytes.
Reservations are bounded. -/
def Event.Safe (bound : ℕ) : Event → Prop
  | read width remaining => width ≤ remaining
  | iterate index remaining => index ≤ remaining
  | reserve count _ => count ≤ bound

/-- No more room is reserved than there are bytes. -/
def Event.Fits : Event → Prop
  | reserve count remaining => count ≤ remaining
  | _ => True

instance : ∀ event : Event, Decidable event.Fits
  | .read .. => .isTrue trivial
  | .iterate .. => .isTrue trivial
  | .reserve count remaining => inferInstanceAs (Decidable (count ≤ remaining))

/-- The number of bytes that were read off the front. -/
def taken (log : List Event) : ℕ :=
  (log.map fun | .read width _ => width | _ => 0).sum

/-- A decoder with the log of what it did. -/
def Audited (ε α : Type) := List UInt8 → List Event × Except ε (α × List UInt8)

namespace Audited

/-- One decoder, and then the other on what it leaves. -/
def andThen (x : Audited ε α) (f : α → Audited ε β) : Audited ε β := fun bytes =>
  match x bytes with
  | (log, .error e) => (log, .error e)
  | (log, .ok (a, rest)) => (log ++ (f a rest).1, (f a rest).2)

instance : Monad (Audited ε) where
  pure a bytes := ([], .ok (a, bytes))
  bind := andThen

/-- A decoder that does nothing that is logged. -/
def ofDecoder (decoder : Decoder ε α) : Audited ε α := fun bytes => ([], decoder.run bytes)

def fail (e : ε) : Audited ε α := ofDecoder (throw e)

/-- Log what is done with the bytes that are left. -/
def emit (event : ℕ → Event) : Audited ε Unit := fun bytes =>
  ([event bytes.length], .ok ((), bytes))

/-- A read of some bytes that panics where there are fewer. -/
def read (width : ℕ) (decoder : Decoder ε α) : Audited ε α := do
  emit (.read width)
  ofDecoder decoder

/-- The next bytes, behind a check that there are as many. -/
def takeBytes (width : ℕ) (e : ε) : Audited ε (List UInt8) := do
  ofDecoder (require width e)
  read width (Wire.takeBytes width e)

/-- Room for elements still to come, where it is granted (`Audited.outcome`). -/
def reserve (count : ℕ) : Audited ε Unit := emit (.reserve count)

/-- The iterations of a loop from an index on. -/
def timesFrom (remaining : ℕ) : (index : ℕ) → ℕ → Audited ε α → Audited ε (List α)
  | _, 0, _ => pure []
  | index, n + 1, decoder => do
    emit fun _ => .iterate index remaining
    let first ← decoder
    let rest ← timesFrom remaining (index + 1) n decoder
    return first :: rest

/-- Run a decoder a number of times. -/
def times (n : ℕ) (decoder : Audited ε α) : Audited ε (List α) :=
  fun bytes => timesFrom bytes.length 0 n decoder bytes

def loopFrom (remaining : ℕ) : (index : ℕ) → ℕ → (σ → Audited ε σ) → σ → Audited ε σ
  | _, 0, _, state => pure state
  | index, n + 1, step, state => do
    emit fun _ => .iterate index remaining
    let state ← step state
    loopFrom remaining (index + 1) n step state

/-- Run a step of a loop a number of times. -/
def loop (n : ℕ) (step : σ → Audited ε σ) (state : σ) : Audited ε σ :=
  fun bytes => loopFrom bytes.length 0 n step state bytes

end Audited

/-! ## Under an allocator -/

/-- Whether there is room for so many elements, after what was done before. -/
abbrev Allocator := List Event → ℕ → Bool

/-- Every reservation of a log is granted. -/
def Allocator.Grants (granted : Allocator) (log : List Event) : Prop :=
  ∀ before count remaining, before ++ [.reserve count remaining] <+: log → granted before count

/-- `Allocator.Grants`, for the rest of a log. -/
def Allocator.admits (granted : Allocator) (done : List Event) : List Event → Bool
  | [] => true
  | .reserve count remaining :: log =>
    granted done count && granted.admits (done ++ [.reserve count remaining]) log
  | event :: log => granted.admits (done ++ [event]) log

/-- How a run ends. -/
inductive Outcome (ε α : Type)
  | returned (result : Except ε α)
  | aborted

/-- The run of a decoder under an allocator. It ends with the process at the first reservation that
is refused. -/
def Audited.outcome (granted : Allocator) (x : Audited ε α) (bytes : List UInt8) : Outcome ε α :=
  if granted.admits [] (x bytes).1 then .returned ((x bytes).2.map Prod.fst) else .aborted

theorem Allocator.admits_iff (granted : Allocator) (log : List Event) {done : List Event} :
    granted.admits done log ↔ ∀ before count remaining,
      before ++ [.reserve count remaining] <+: log → granted (done ++ before) count := by
  induction log generalizing done with
  | nil => simp [admits]
  | cons event log ih =>
    have htail : granted.admits (done ++ [event]) log ↔ ∀ before count remaining,
        before ++ [.reserve count remaining] <+: log →
          granted (done ++ event :: before) count := by
      rw [ih]
      simp only [List.append_assoc, List.singleton_append]
    have hall : (∀ before count remaining, before ++ [.reserve count remaining] <+: event :: log →
        granted (done ++ before) count) ↔
          (∀ count remaining, event = .reserve count remaining → granted done count) ∧
            granted.admits (done ++ [event]) log := by
      rw [htail]
      constructor
      · intro h
        refine ⟨?_, ?_⟩
        · rintro count remaining rfl
          have hfirst := h [] count remaining (by simp)
          rwa [List.append_nil] at hfirst
        · intro before count remaining hlater
          exact h (event :: before) count remaining
            (List.cons_prefix_cons.2 ⟨rfl, hlater⟩)
      · rintro ⟨hfirst, hlater⟩ before count remaining hprefix
        cases before with
        | nil =>
          rw [List.append_nil]
          exact hfirst count remaining (List.cons_prefix_cons.1 hprefix).1.symm
        | cons event' before =>
          obtain ⟨rfl, hrest⟩ := List.cons_prefix_cons.1 hprefix
          exact hlater before count remaining hrest
    rw [hall]
    cases event <;> simp [admits]

theorem Audited.outcome_of_grants {granted : Allocator} {x : Audited ε α} {bytes : List UInt8}
    (h : granted.Grants (x bytes).1) :
    x.outcome granted bytes = .returned ((x bytes).2.map Prod.fst) := by
  have hadmits : granted.admits [] (x bytes).1 = true := (granted.admits_iff _).2 h
  rw [outcome, if_pos hadmits]

theorem Audited.outcome_of_not_grants {granted : Allocator} {x : Audited ε α} {bytes : List UInt8}
    (h : ¬ granted.Grants (x bytes).1) : x.outcome granted bytes = .aborted := by
  have hadmits : ¬ granted.admits [] (x bytes).1 = true := fun hall =>
    h ((granted.admits_iff _).1 hall)
  rw [outcome, if_neg hadmits]

/-! ## The audited version of a decoder -/

section Audits

variable (bound : ℕ) (panic : ε)

/-- What the run of an audited decoder on some bytes is like. It takes at least `least` bytes, and
what it returns meets `post`. -/
structure AuditsAt (x : Audited ε α) (d : Decoder ε α) (bytes : List UInt8) (least : ℕ)
    (post : α → Prop) : Prop where
  erases : (x bytes).2 = d.run bytes
  total : (x bytes).2 ≠ .error panic
  safe : ∀ event ∈ (x bytes).1, event.Safe bound
  ok : ∀ a rest, (x bytes).2 = .ok (a, rest) → rest.length + least ≤ bytes.length ∧ post a ∧
    ∀ event ∈ (x bytes).1, event.Fits

/-- `x` is the audited version of `d`, where at least `need` bytes are left. -/
def Audits (x : Audited ε α) (d : Decoder ε α) (need least : ℕ) (post : α → Prop) : Prop :=
  ∀ bytes, need ≤ bytes.length → AuditsAt bound panic x d bytes least post

end Audits

variable {bound : ℕ} {panic e : ε} {x y : Audited ε α} {d d' : Decoder ε α} {need least n : ℕ}
  {post : α → Prop} {post' : β → Prop} {f : α → Audited ε β} {g : α → Decoder ε β}

theorem AuditsAt.mono {bytes : List UInt8} {least' : ℕ} {weaker : α → Prop}
    (h : AuditsAt bound panic x d bytes least post) (hleast : least' ≤ least)
    (hpost : ∀ a, post a → weaker a) : AuditsAt bound panic x d bytes least' weaker := by
  refine ⟨h.erases, h.total, h.safe, fun a rest hok => ?_⟩
  obtain ⟨hlength, ha, hfits⟩ := h.ok a rest hok
  exact ⟨by omega, hpost a ha, hfits⟩

theorem Audits.mono {need' least' : ℕ} {weaker : α → Prop}
    (h : Audits bound panic x d need least post) (hneed : need ≤ need') (hleast : least' ≤ least)
    (hpost : ∀ a, post a → weaker a) : Audits bound panic x d need' least' weaker :=
  fun bytes hbytes => (h bytes (hneed.trans hbytes)).mono hleast hpost

theorem AuditsAt.of_eq {bytes : List UInt8} (h : AuditsAt bound panic x d bytes least post)
    (heq : y bytes = x bytes) : AuditsAt bound panic y d bytes least post := by
  obtain ⟨herases, htotal, hsafe, hok⟩ := h
  rw [← heq] at herases htotal hsafe hok
  exact ⟨herases, htotal, hsafe, hok⟩

theorem Audits.pure {a : α} (h : post a) :
    Audits bound panic (Pure.pure a) (Pure.pure a) 0 0 post := by
  intro bytes _
  refine ⟨rfl, nofun, nofun, ?_⟩
  rintro _ _ ⟨⟩
  exact ⟨Nat.le_refl _, h, nofun⟩

theorem Audits.fail (h : e ≠ panic) :
    Audits bound panic (Audited.fail e) (throw e) 0 least post := by
  intro bytes _
  refine ⟨rfl, ?_, nofun, nofun⟩
  rintro ⟨⟩
  exact h rfl

theorem Audited.bind_of_error {bytes : List UInt8} {log : List Event}
    (h : x bytes = (log, .error e)) (f : α → Audited ε β) : (x >>= f) bytes = (log, .error e) := by
  show andThen x f bytes = _
  rw [andThen, h]

theorem Audited.bind_of_ok {bytes rest : List UInt8} {log : List Event} {a : α}
    (h : x bytes = (log, .ok (a, rest))) (f : α → Audited ε β) :
    (x >>= f) bytes = (log ++ (f a rest).1, (f a rest).2) := by
  show andThen x f bytes = _
  rw [andThen, h]

/-- One step, and then the others. -/
theorem AuditsAt.bind {bytes : List UInt8} {m : ℕ} (hx : AuditsAt bound panic x d bytes m post)
    (hf : ∀ a rest, d.run bytes = .ok (a, rest) → post a → rest.length + m ≤ bytes.length →
      AuditsAt bound panic (f a) (g a) rest n post') :
    AuditsAt bound panic (x >>= f) (d >>= g) bytes (m + n) post' := by
  obtain ⟨herases, htotal, hsafe, hok⟩ := hx
  cases hbytes : x bytes with
  | mk log result =>
    rw [hbytes] at herases htotal hsafe hok
    cases result with
    | error fault =>
      have hrun := Audited.bind_of_error hbytes f
      refine ⟨?_, ?_, ?_, ?_⟩
      · rw [hrun, StateT.run_bind, ← herases]
        rfl
      · rw [hrun]
        intro h
        cases h
        exact htotal rfl
      · rw [hrun]
        exact hsafe
      · rw [hrun]
        exact fun _ _ h => nomatch h
    | ok value =>
      obtain ⟨a, rest⟩ := value
      have hrun := Audited.bind_of_ok hbytes f
      obtain ⟨hlength, ha, hfits⟩ := hok a rest rfl
      obtain ⟨herases', htotal', hsafe', hok'⟩ := hf a rest herases.symm ha hlength
      refine ⟨?_, ?_, ?_, ?_⟩
      · rw [hrun, StateT.run_bind, ← herases]
        exact herases'
      · rw [hrun]
        exact htotal'
      · rw [hrun]
        exact List.forall_mem_append.2 ⟨hsafe, hsafe'⟩
      · rw [hrun]
        intro b rest' h
        obtain ⟨hlength', hb, hfits'⟩ := hok' b rest' h
        exact ⟨by omega, hb, List.forall_mem_append.2 ⟨hfits, hfits'⟩⟩

theorem Audits.bind {m : ℕ} (hx : Audits bound panic x d need m post)
    (hf : ∀ a, post a → Audits bound panic (f a) (g a) 0 n post') :
    Audits bound panic (x >>= f) (d >>= g) need (m + n) post' :=
  fun bytes hbytes => (hx bytes hbytes).bind fun a rest _ ha _ => hf a ha rest (Nat.zero_le _)

/-- Something is logged that is safe on the bytes that are left. -/
theorem AuditsAt.emit {bytes : List UInt8} {event : ℕ → Event} {x : Audited ε α}
    (hsafe : (event bytes.length).Safe bound) (hx : AuditsAt bound panic x d bytes least post)
    (hfits : ∀ a rest, (x bytes).2 = .ok (a, rest) → (event bytes.length).Fits) :
    AuditsAt bound panic (Audited.emit event >>= fun _ => x) d bytes least post := by
  have hrun : (Audited.emit event >>= fun _ => x) bytes =
      ([event bytes.length] ++ (x bytes).1, (x bytes).2) := rfl
  obtain ⟨herases, htotal, hsafe', hok⟩ := hx
  refine ⟨?_, ?_, ?_, ?_⟩
  · rw [hrun, herases]
  · rwa [hrun]
  · rw [hrun]
    exact List.forall_mem_cons.2 ⟨hsafe, hsafe'⟩
  · rw [hrun]
    intro a rest h
    obtain ⟨hlength, ha, hall⟩ := hok a rest h
    exact ⟨hlength, ha, List.forall_mem_cons.2 ⟨hfits a rest h, hall⟩⟩

theorem Audits.ite {p : Prop} [Decidable p] (hx : p → Audits bound panic x d need least post)
    (hy : ¬ p → Audits bound panic y d' need least post) :
    Audits bound panic (if p then x else y) (if p then d else d') need least post := by
  by_cases hp : p
  · rw [if_pos hp, if_pos hp]
    exact hx hp
  · rw [if_neg hp, if_neg hp]
    exact hy hp

/-! ## Reads -/

/-- A decoder that does nothing that is logged, and fails. -/
theorem AuditsAt.of_run_error {bytes : List UInt8} (he : e ≠ panic)
    (hrun : d.run bytes = .error e) :
    AuditsAt bound panic (Audited.ofDecoder d) d bytes least post := by
  refine ⟨rfl, ?_, nofun, fun a rest hok => nomatch hrun.symm.trans hok⟩
  show d.run bytes ≠ .error panic
  rw [hrun]
  exact fun heq => he (Except.error.inj heq)

/-- A decoder that does nothing that is logged, and returns. -/
theorem AuditsAt.of_run_ok {bytes rest : List UInt8} {a : α} (hrun : d.run bytes = .ok (a, rest))
    (hlength : rest.length + least ≤ bytes.length) (ha : post a) :
    AuditsAt bound panic (Audited.ofDecoder d) d bytes least post := by
  refine ⟨rfl, ?_, nofun, fun b rest' hok => ?_⟩
  · show d.run bytes ≠ .error panic
    rw [hrun]
    nofun
  · cases hrun.symm.trans hok
    exact ⟨hlength, ha, nofun⟩

/-- The decoder takes this many bytes, where there are as many. -/
def Takes (width : ℕ) (d : Decoder ε α) : Prop :=
  ∀ bytes, width ≤ bytes.length → ∃ a, d.run bytes = .ok (a, bytes.drop width)

theorem takeBytes_run {bytes : List UInt8} {width : ℕ} (h : width ≤ bytes.length) :
    (takeBytes width e).run bytes = .ok (bytes.take width, bytes.drop width) := by
  rw [takeBytes, StateT.run_bind, StateT.run_get]
  simp [Nat.not_lt.2 h]

theorem takes_takeBytes (width : ℕ) (e : ε) : Takes width (takeBytes width e) :=
  fun _ hbytes => ⟨_, takeBytes_run hbytes⟩

theorem Takes.map {width : ℕ} {read : α → β} (h : Takes width d) : Takes width (read <$> d) := by
  intro bytes hbytes
  obtain ⟨a, hrun⟩ := h bytes hbytes
  refine ⟨read a, ?_⟩
  rw [StateT.run_map, hrun]
  rfl

theorem require_run_short {bytes : List UInt8} {width : ℕ} (h : ¬ width ≤ bytes.length) :
    (require width e).run bytes = .error e := by
  rw [require, StateT.run_bind, StateT.run_get]
  simp only [pure_bind, if_pos (Nat.not_le.1 h)]
  rfl

theorem takeBytes_run_short {bytes : List UInt8} {width : ℕ} (h : ¬ width ≤ bytes.length) :
    (takeBytes width e).run bytes = .error e := by
  rw [takeBytes, StateT.run_bind, StateT.run_get]
  simp only [pure_bind, if_pos (Nat.not_le.1 h)]
  rfl

/-- A check of the length. -/
theorem AuditsAt.require {bytes : List UInt8} {next : Unit → Audited ε α}
    {next' : Unit → Decoder ε α} (he : e ≠ panic)
    (h : need ≤ bytes.length → AuditsAt bound panic (next ()) (next' ()) bytes least post) :
    AuditsAt bound panic (Audited.ofDecoder (Wire.require need e) >>= next)
      (Wire.require need e >>= next') bytes least post := by
  rw [← Nat.zero_add least]
  have hcheck : (need ≤ bytes.length ∧ (Wire.require need e).run bytes = .ok ((), bytes)) ∨
      (Wire.require need e).run bytes = .error e := by
    by_cases hlength : need ≤ bytes.length
    · exact .inl ⟨hlength, require_run hlength⟩
    · exact .inr (require_run_short hlength)
  rcases hcheck with ⟨hlength, hrun⟩ | hrun
  · have hpasses : AuditsAt bound panic (Audited.ofDecoder (Wire.require need e))
        (Wire.require need e) bytes 0 fun _ => True := .of_run_ok hrun (Nat.le_refl _) trivial
    refine hpasses.bind fun _ _ hok _ _ => ?_
    cases hrun.symm.trans hok
    exact h hlength
  · have hfails : AuditsAt bound panic (Audited.ofDecoder (Wire.require need e))
        (Wire.require need e) bytes 0 fun _ => True := .of_run_error he hrun
    exact hfails.bind fun _ _ hok _ _ => nomatch hrun.symm.trans hok

theorem Audits.require {next : Unit → Audited ε α} {next' : Unit → Decoder ε α} (he : e ≠ panic)
    (h : Audits bound panic (next ()) (next' ()) need least post) :
    Audits bound panic (Audited.ofDecoder (Wire.require need e) >>= next)
      (Wire.require need e >>= next') 0 least post := fun bytes _ => .require he (h bytes)

/-- A read that finds its bytes. -/
theorem audits_read {width : ℕ} (hd : Takes width d) :
    Audits bound panic (Audited.read width d) d width width fun _ => True := by
  intro bytes hbytes
  obtain ⟨a, hrun⟩ := hd bytes hbytes
  refine .emit hbytes (.of_run_ok hrun ?_ trivial) fun _ _ _ => trivial
  rw [List.length_drop]
  omega

/-- A read that finds its bytes, and what is done with the bytes behind them. -/
theorem AuditsAt.read {bytes : List UInt8} {width : ℕ} (hd : Takes width d)
    (hlength : width ≤ bytes.length)
    (h : ∀ a, AuditsAt bound panic (f a) (g a) (bytes.drop width) n post') :
    AuditsAt bound panic (Audited.read width d >>= f) (d >>= g) bytes (width + n) post' := by
  refine (audits_read hd bytes hlength).bind fun a rest hrun _ _ => ?_
  obtain ⟨_, hrun'⟩ := hd bytes hlength
  cases hrun.symm.trans hrun'
  exact h a

theorem Audits.read {width : ℕ} (hd : Takes width d)
    (h : ∀ a, Audits bound panic (f a) (g a) need n post') :
    Audits bound panic (Audited.read width d >>= f) (d >>= g) (width + need) (width + n)
      post' := by
  intro bytes hbytes
  refine .read hd (by omega) fun a => h a _ ?_
  rw [List.length_drop]
  omega

/-- Bytes that are taken behind a check that there are as many. -/
theorem audits_takeBytes (width : ℕ) (he : e ≠ panic) :
    Audits bound panic (Audited.takeBytes width e) (takeBytes width e) 0 width fun _ => True := by
  have hsame : takeBytes width e = (do
      require width e
      takeBytes width e) := by
    funext bytes
    show (takeBytes width e).run bytes = (require width e >>= fun _ => takeBytes width e).run bytes
    rw [StateT.run_bind]
    by_cases hlength : width ≤ bytes.length
    · rw [require_run hlength, Checked.ok_bind]
    · rw [require_run_short hlength, takeBytes_run_short hlength]
      rfl
  rw [hsame]
  exact Audits.require he (audits_read (takes_takeBytes width e))

/-! ## Loops -/

/-- The iterations from an index on take at least a byte each. -/
theorem audits_timesFrom (h : Audits bound panic x d 0 1 post) (remaining n : ℕ) {index : ℕ}
    {bytes : List UInt8} (hindex : bytes.length + index ≤ remaining) :
    AuditsAt bound panic (Audited.timesFrom remaining index n x) (times n d) bytes n
      fun _ => True := by
  induction n generalizing index bytes with
  | zero => exact Audits.pure trivial bytes (Nat.zero_le _)
  | succ n ih =>
    rw [Audited.timesFrom, times]
    refine .emit (Nat.le_trans (by omega) hindex) ?_ fun _ _ _ => trivial
    rw [Nat.add_comm n 1]
    refine (h bytes (Nat.zero_le _)).bind fun first rest _ _ hlength => ?_
    exact (ih (by omega)).bind fun _ rest' _ _ _ => Audits.pure trivial rest' (Nat.zero_le _)

/-- A loop over elements that take at least a byte each. -/
theorem Audits.times (h : Audits bound panic x d 0 1 post) (n : ℕ) :
    Audits bound panic (Audited.times n x) (Wire.times n d) 0 n fun _ => True :=
  fun bytes _ =>
    (audits_timesFrom h bytes.length n (Nat.le_refl (bytes.length + 0))).of_eq rfl

theorem audits_loopFrom {step : σ → Audited ε σ} {step' : σ → Decoder ε σ}
    (h : ∀ state, Audits bound panic (step state) (step' state) 0 1 fun _ => True)
    (remaining n : ℕ) {index : ℕ} {bytes : List UInt8} (hindex : bytes.length + index ≤ remaining)
    (state : σ) : AuditsAt bound panic (Audited.loopFrom remaining index n step state)
      (loop n step' state) bytes n fun _ => True := by
  induction n generalizing index bytes state with
  | zero => exact Audits.pure trivial bytes (Nat.zero_le _)
  | succ n ih =>
    rw [Audited.loopFrom, loop]
    refine .emit (Nat.le_trans (by omega) hindex) ?_ fun _ _ _ => trivial
    rw [Nat.add_comm n 1]
    exact (h state bytes (Nat.zero_le _)).bind fun state' rest _ _ hlength => ih (by omega) state'

theorem Audits.loop {step : σ → Audited ε σ} {step' : σ → Decoder ε σ}
    (h : ∀ state, Audits bound panic (step state) (step' state) 0 1 fun _ => True) (n : ℕ)
    (state : σ) :
    Audits bound panic (Audited.loop n step state) (Wire.loop n step' state) 0 n fun _ => True :=
  fun bytes _ =>
    (audits_loopFrom h bytes.length n (Nat.le_refl (bytes.length + 0)) state).of_eq rfl

/-- Room that is reserved for the elements of a loop. -/
theorem Audits.reserve {count : ℕ} (hcount : count ≤ bound)
    (h : Audits bound panic x d 0 count post) :
    Audits bound panic (Audited.reserve count >>= fun _ => x) d 0 count post := by
  intro bytes hbytes
  have hat := h bytes hbytes
  refine .emit hcount hat fun a rest hok => ?_
  have hlength := (hat.ok a rest hok).1
  exact Nat.le_trans (by omega) hlength

end KafkaCli.Wire
