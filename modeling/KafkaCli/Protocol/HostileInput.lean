import KafkaCli.Quorum.Audit
import KafkaCli.Streams.Audit

/-!
# Two response decoders on hostile input

**Theorem (`responses_endured`).** On whatever bytes, of whatever version, and with whatever
allocator, `decode_quorum_response` and `decode_streams_group_description` return without a panic
wherever the room that they reserve is granted. No read goes beyond the buffer, and no loop begins
more than one iteration beyond the bytes in front of it.

What is reserved is another matter. Both take a count off the wire and make room for as many
elements, up to `2 ^ 35 - 2` of them, before there is one of them (`reserve_hostileResponse`); such
a response is refused only where its elements turn out to be missing, and it ends the process
where the room is not granted.
-/

namespace KafkaCli.Protocol

open Wire

/-- A decoder with this log ended well on these bytes, wherever it was given the room. -/
structure Endured {α : Type} (granted : Allocator) (x : Wire.Audited Fault α) (bytes : List UInt8)
    (result : Except Fault α) : Prop where
  ended : granted.Grants (x bytes).1 → x.outcome granted bytes = .returned result
  aborted : ¬ granted.Grants (x bytes).1 → x.outcome granted bytes = .aborted
  returns : result ≠ .error .panicked
  reads : ∀ {width remaining}, .read width remaining ∈ (x bytes).1 → width ≤ remaining
  loops : ∀ {index remaining}, .iterate index remaining ∈ (x bytes).1 → index + 1 ≤ remaining + 1
  reserves : ∀ {count remaining}, .reserve count remaining ∈ (x bytes).1 → count ≤ maxCount
  fits : ∀ {count remaining}, .reserve count remaining ∈ (x bytes).1 →
    (∃ a, result = .ok a) → count ≤ remaining

theorem Endures.endured {α : Type} {x : Wire.Audited Fault α} {d : Decoder α} {least : ℕ}
    (h : Endures x d least) (granted : Allocator) (bytes : List UInt8) :
    Endured granted x bytes (d.run' bytes) := by
  obtain ⟨herases, htotal, hsafe, hok⟩ := h bytes (Nat.zero_le _)
  have hresult : d.run' bytes = (x bytes).2.map Prod.fst := by
    rw [StateT.run'_eq, herases]
    rfl
  refine ⟨fun hgrants => ?_, Audited.outcome_of_not_grants, ?_, fun hread => hsafe _ hread,
    fun hiterate => ?_, fun hreserve => hsafe _ hreserve, fun hreserve hreturns => ?_⟩
  · rw [Audited.outcome_of_grants hgrants, hresult]
  · rw [hresult]
    cases hx : (x bytes).2 with
    | error fault =>
      intro heq
      cases heq
      exact htotal hx
    | ok value => exact nofun
  · exact Nat.succ_le_succ (hsafe _ hiterate)
  · obtain ⟨a, ha⟩ := hreturns
    rw [hresult] at ha
    cases hx : (x bytes).2 with
    | error fault =>
      rw [hx] at ha
      cases ha
    | ok value => exact (hok value.1 value.2 hx).2.2 _ hreserve

/-- The decoders of both responses, where the client's reads fail on a short buffer. -/
theorem responses_endured (prim : Streams.Describe.Primitives) (hprim : prim.Guarded)
    (granted : Allocator) (bytes : List UInt8) (version : Int) :
    Endured granted (Quorum.Audit.decodeQuorum version) bytes
        (Quorum.decodeQuorumResponse bytes version) ∧
      Endured granted (Streams.Describe.Audit.decodeStreamsGroupDescription prim version) bytes
        ((Streams.Describe.decodeStreamsGroupDescription prim version).run' bytes) := by
  have hquorum := Quorum.endures_decodeQuorum version
  have hgroup := Streams.Describe.endures_decodeStreamsGroupDescription hprim version
  exact ⟨hquorum.endured granted bytes, hgroup.endured granted bytes⟩

/-- One partition without a name, and a voter count that nothing follows. -/
def hostileResponse : List UInt8 :=
  [0, 0] ++ [2] ++ [1] ++ [2] ++ [0, 0, 0, 0, 0, 0] ++ List.replicate 16 0 ++
    [0xff, 0xff, 0xff, 0xff, 0x7f]

/-- Room for a million elements. -/
def modest : Allocator := fun _ count => count ≤ 10 ^ 6

theorem responses_endured_hostileResponse :
    (Quorum.Audit.decodeQuorum 0).outcome modest hostileResponse = .aborted ∧
      Endured modest (Quorum.Audit.decodeQuorum 0) hostileResponse
        (Quorum.decodeQuorumResponse hostileResponse 0) ∧
      Endured modest (Streams.Describe.Audit.decodeStreamsGroupDescription
          (.bigEndian (.config "unexpected end of buffer")) 0) hostileResponse
        ((Streams.Describe.decodeStreamsGroupDescription
          (.bigEndian (.config "unexpected end of buffer")) 0).run' hostileResponse) := by
  refine ⟨?_, responses_endured _ (Streams.Describe.guarded_bigEndian _) modest hostileResponse 0⟩
  have hadmits : Allocator.admits modest [] (Quorum.Audit.decodeQuorum 0 hostileResponse).1 =
      false := by decide +kernel
  rw [Audited.outcome, hadmits]
  rfl

/-- Room for `2 ^ 35 - 2` voters, with no byte left. -/
theorem reserve_hostileResponse :
    .reserve (2 ^ 35 - 2) 0 ∈ (Quorum.Audit.decodeQuorum 0 hostileResponse).1 := by
  decide +kernel

/-- A count that room is reserved for may be larger than what is left to read. -/
theorem not_reserve_le : ¬ ∀ (bytes : List UInt8) (version : Int) (count remaining : ℕ),
    .reserve count remaining ∈ (Quorum.Audit.decodeQuorum version bytes).1 →
      count ≤ remaining := by
  intro h
  have hcount := h hostileResponse 0 (2 ^ 35 - 2) 0 reserve_hostileResponse
  omega

end KafkaCli.Protocol
