import KafkaCli.Quorum.RoundTrip
import KafkaCli.Storage.Controller

/-!
# Endpoints of controllers

`metadata-quorum describe` prints the listeners of a node as endpoints, and
`metadata-quorum add-controller` prints those of the controller that it adds, which it has read
from the configuration with `parse_controller_endpoint`.

**Theorem (`endpointsAgree_iff`).** A described endpoint is read back (`parse_describedEndpoint`),
but it is reported as it was described exactly when its host has no colon: the report of an added
controller puts no brackets around an address.
-/

namespace KafkaCli.Quorum

open Decimal Protocol Storage Text Wire

/-- The endpoint that `describe` prints for a listener. -/
def describedEndpoint (name host : String) (port : UInt16) : String :=
  name ++ "://" ++ bracketed host ++ ":" ++ toString port

/-- The endpoint that `add-controller` prints. -/
def reportedEndpoint (endpoint : Storage.ControllerEndpoint) : String :=
  s!"{endpoint.name}://{endpoint.host}:{endpoint.port}"

/-- The decoder of the quorum prints a listener so. -/
theorem reads_describedEndpoint (listener : Schema.Listener) :
    Reads decodeQuorumListener listener.encode
      (describedEndpoint listener.name.text listener.host.text listener.port) :=
  reads_quorumListener listener

/-! ## Reading an endpoint -/

/-- No scheme starts in a name that has none. -/
theorem splitOnceText_scheme {name : String} (h : ¬ "://".toList <:+: name.toList)
    (address : String) :
    splitOnceText (name ++ ("://" ++ address)) "://" = some (name, address) := by
  refine splitOnceText_eq_some.2 ⟨rfl, ?_⟩
  intro n hn hoccurs
  have hdrop : (name ++ ("://" ++ address)).toList.drop n =
      name.toList.drop n ++ (':' :: '/' :: '/' :: address.toList) := by
    rw [String.toList_append, List.drop_append_of_le_length (Nat.le_of_lt hn)]
    simp
  have hne : name.toList.drop n ≠ [] := by
    rw [ne_eq, List.drop_eq_nil_iff]
    omega
  have hlist : "://".toList = [':', '/', '/'] := by decide
  rw [OccursAt, hdrop, hlist] at hoccurs
  -- An occurrence that starts in the name ends in it, since the scheme does not overlap itself.
  have hfront : [':', '/', '/'] <+: name.toList.drop n := by
    match hname : name.toList.drop n with
    | [] => exact absurd hname hne
    | [a] =>
      rw [hname] at hoccurs
      simp at hoccurs
    | [a, b] =>
      rw [hname] at hoccurs
      simp at hoccurs
    | a :: b :: c :: rest =>
      rw [hname] at hoccurs
      simpa [List.cons_prefix_cons] using hoccurs
  exact h (hlist ▸ hfront.isInfix.trans (List.drop_suffix n _).isInfix)

/-- The brackets around a host are taken off. -/
theorem trimMatches_bracketed {host : String} (hne : host ≠ "")
    (h : ∀ c ∈ host.toList, c ∉ ['[', ']']) : trimMatches (bracketed host) ['[', ']'] = host := by
  have hlist : host.toList ≠ [] := by simpa using hne
  have hbare : trimList (· ∈ ['[', ']']) host.toList = host.toList := by
    have htrim := trimList_append (· ∈ ['[', ']']) [] (fun hne => by
      simpa using h _ (List.head_mem hne)) (fun hne => by
      simpa using h _ (List.getLast_mem hne)) hlist
    simpa using htrim
  rw [trimMatches, bracketed]
  split_ifs with hcolon
  · have hbrackets : ("[" ++ host ++ "]").toList = '[' :: (host.toList ++ [']']) := by simp
    have hopen : trimList (· ∈ ['[', ']']) ('[' :: (host.toList ++ [']'])) =
        trimList (· ∈ ['[', ']']) (host.toList ++ [']']) := by
      rw [trimList, List.dropWhile_cons_of_pos (by simp), trimList]
    rw [hbrackets, hopen, trimList_concat _ _ (by simp), hbare, String.ofList_toList]
  · rw [hbare, String.ofList_toList]

theorem toString_port (port : UInt16) : toString port = toString port.toNat := rfl

theorem parseU16_port (port : UInt16) : parseU16 (toString port.toNat) = .ok port.toNat := by
  refine parseUnsigned_toString ?_
  have hlt : port.toNat < 2 ^ 16 := port.toNat_lt
  omega

/-- An endpoint is read by its parts. -/
theorem parseControllerEndpoint_of_parts {value name address host port bare : String} {number : Nat}
    (hscheme : splitOnceText value "://" = some (name, address))
    (haddress : rsplitOnce address ':' = some (host, port))
    (hbare : trimMatches host ['[', ']'] = bare) (hne : bare ≠ "")
    (hport : parseU16 port = .ok number) :
    parseControllerEndpoint value =
      .ok { name := toAsciiUppercase name, host := bare, port := number } := by
  unfold parseControllerEndpoint
  simp only [hscheme, haddress, hbare, hport, if_neg hne]

/-- **A described endpoint is read back**, with its name in upper case. -/
theorem parse_describedEndpoint {name host : String} {port : UInt16}
    (hname : ¬ "://".toList <:+: name.toList) (hne : host ≠ "")
    (hhost : ∀ c ∈ host.toList, c ∉ ['[', ']']) :
    parseControllerEndpoint (describedEndpoint name host port) =
      .ok { name := toAsciiUppercase name, host := host, port := port.toNat } := by
  have htext : describedEndpoint name host port =
      name ++ ("://" ++ (bracketed host ++ (":" ++ toString port.toNat))) := by
    simp only [describedEndpoint, String.append_assoc, toString_port]
  have hdigits : ':' ∉ (toString port.toNat).toList := by
    intro hmem
    have hdigit : ':'.isDigit ∨ ':' = '-' := isDigit_of_mem_toString (n := (port.toNat : Int)) hmem
    simp at hdigit
  have haddress : rsplitOnce (bracketed host ++ (":" ++ toString port.toNat)) ':' =
      some (bracketed host, toString port.toNat) := by
    have hcolon : ":" = String.singleton ':' := by decide
    rw [hcolon]
    exact rsplitOnce_append _ hdigits
  have hscheme : splitOnceText (describedEndpoint name host port) "://" =
      some (name, bracketed host ++ (":" ++ toString port.toNat)) := by
    rw [htext]
    exact splitOnceText_scheme hname _
  exact parseControllerEndpoint_of_parts hscheme haddress
    (trimMatches_bracketed hne hhost) hne (parseU16_port port)

/-! ## The theorem -/

/-- An endpoint is read as it was described, and what is read is reported as it is described. -/
structure EndpointsAgree (name host : String) (port : UInt16) : Prop where
  parsed : parseControllerEndpoint (describedEndpoint name host port) =
    .ok { name := toAsciiUppercase name, host := host, port := port.toNat }
  reported : reportedEndpoint { name := toAsciiUppercase name, host := host, port := port.toNat } =
    describedEndpoint (toAsciiUppercase name) host port

/-- Brackets change a text. -/
theorem bracketed_eq_self {host : String} : bracketed host = host ↔ ':' ∉ host.toList := by
  rw [bracketed]
  split_ifs with hcolon
  · refine ⟨fun h => ?_, fun h => absurd hcolon h⟩
    have hlength : ("[" ++ host ++ "]").length = host.length := congrArg String.length h
    simp only [String.length_append] at hlength
    have hone : "[".length = 1 := rfl
    omega
  · exact ⟨fun _ => hcolon, fun _ => rfl⟩

/-- Of one name and port, the same endpoint is described and reported for the same host only. -/
theorem reported_eq_described {name host : String} {port : UInt16} :
    reportedEndpoint { name := name, host := host, port := port.toNat } =
      describedEndpoint name host port ↔ bracketed host = host := by
  have hreported : reportedEndpoint { name := name, host := host, port := port.toNat } =
      name ++ "://" ++ host ++ ":" ++ toString port.toNat := by
    simp only [reportedEndpoint, toString, String.append_assoc]
  rw [hreported, describedEndpoint, toString_port, String.append_left_inj,
    String.append_left_inj, String.append_right_inj]
  exact eq_comm

/-- **When endpoints agree.** They do exactly where the host has no colon. -/
theorem endpointsAgree_iff (name host : String) (port : UInt16)
    (hname : ¬ "://".toList <:+: name.toList) (hne : host ≠ "")
    (hhost : ∀ c ∈ host.toList, c ∉ ['[', ']']) :
    EndpointsAgree name host port ↔ ':' ∉ host.toList := by
  rw [← bracketed_eq_self]
  constructor
  · intro h
    exact reported_eq_described.1 h.reported
  · intro h
    exact ⟨parse_describedEndpoint hname hne hhost, reported_eq_described.2 h⟩

theorem endpointsAgree_iff_name :
    EndpointsAgree "CONTROLLER" "kafka1" 9093 ↔ ':' ∉ "kafka1".toList :=
  endpointsAgree_iff "CONTROLLER" "kafka1" 9093 (by decide +kernel) (by decide) (by decide)

/-- The loopback address is reported without its brackets. -/
theorem not_endpointsAgree :
    ¬ ∀ (name host : String) (port : UInt16), ¬ "://".toList <:+: name.toList → host ≠ "" →
      (∀ c ∈ host.toList, c ∉ ['[', ']']) → EndpointsAgree name host port := by
  intro hall
  have hagree := hall "CONTROLLER" "::1" 9093 (by decide +kernel) (by decide) (by decide)
  have hbracketed := reported_eq_described.1 hagree.reported
  exact absurd hbracketed (by decide)

end KafkaCli.Quorum
