import KafkaCli.Lib.Checked
import KafkaCli.Lib.Decimal
import KafkaCli.Lib.Text
import KafkaCli.Storage.Uuid

/-!
# The file `meta.properties`

Each formatted directory has a file with the ids of its cluster, its node and the directory.
`readMetaText_metaText` says that what is written is read back, but for white space around the
cluster id.
-/

namespace KafkaCli.Storage

open Checked Decimal Text

structure MetaProperties where
  version : Int
  clusterId : Option String
  nodeId : Option Int
  directoryId : Option String
  deriving DecidableEq, Repr

/-! ## Writing -/

/-- The lines that `write_meta_properties` writes. -/
def metaLines (properties : MetaProperties) : List String :=
  ["#", "# generated by kafka-cli storage format", "version=" ++ toString properties.version] ++
    (properties.clusterId.map fun id => "cluster.id=" ++ id).toList ++
    (properties.nodeId.map fun id => "node.id=" ++ toString id).toList ++
    (properties.directoryId.map fun id => "directory.id=" ++ id).toList

def metaText (properties : MetaProperties) : String := unlines (metaLines properties)

/-! ## Reading -/

/-- Take over one entry of the file. -/
def readMetaEntry (properties : MetaProperties) (key value : String) : Result MetaProperties :=
  if key = "version" then
    match parseI32 value with
    | .ok version => .ok { properties with version }
    | .error error => .error (.config s!"invalid version in meta.properties: {error.text}")
  else if key = "cluster.id" then .ok { properties with clusterId := some value }
  else if key = "node.id" ∨ key = "broker.id" then
    match parseI32 value with
    | .ok nodeId => .ok { properties with nodeId := some nodeId }
    | .error error => .error (.config s!"invalid node.id: {error.text}")
  else if key = "directory.id" then .ok { properties with directoryId := some value }
  else .ok properties

/-- Take over one line of the file. -/
def readMetaLine (properties : MetaProperties) (line : String) : Result MetaProperties :=
  let line := trim line
  if line = "" ∨ startsWith line "#" ∨ startsWith line "!" then .ok properties
  else
    match splitOnce line '=' with
    | none => .ok properties
    | some (key, value) => readMetaEntry properties (trim key) (trim value)

/-- `read_meta_properties`, once the text has been read. -/
def readMetaText (text : String) : Result MetaProperties := do
  let properties ← (lines text).foldlM readMetaLine ⟨0, none, none, none⟩
  failIf (properties.version ≥ 1 ∧ properties.clusterId = none)
    (.config "cluster.id was not found in meta.properties")
  failIf (properties.version ≥ 1 ∧ properties.nodeId = none)
    (.config "node.id was not found in meta.properties")
  return properties

/-! ## Reading what was written -/

/-- The metadata of a directory that is formatted. -/
def formattedMeta (clusterId : String) (nodeId : Int) (directoryId : Uuid) : MetaProperties where
  version := 1
  clusterId := some clusterId
  nodeId := some nodeId
  directoryId := some directoryId.hyphenated

/-- A key that the reader finds in front of the equals sign. -/
structure SolidKey (key : String) : Prop where
  trim_eq : trim key = key
  equals_not_mem : '=' ∉ key.toList
  head : ∃ c rest, key.toList = c :: rest ∧ isWhiteSpace c = false ∧ c ≠ '#' ∧ c ≠ '!'

/-- A line with a key and a value is taken over as an entry. -/
theorem readMetaLine_entry {key : String} (hkey : SolidKey key) (properties : MetaProperties)
    (value : String) :
    readMetaLine properties (stripCr (key ++ ("=" ++ value))) =
      readMetaEntry properties key (trim value) := by
  obtain ⟨c, tail, hlist, hspace, hhash, hbang⟩ := hkey.head
  have hstart : (key ++ "=").toList = c :: (tail ++ ['=']) := by simp [hlist]
  obtain ⟨rest, htrim, hrest⟩ := trim_append (key ++ "=") (by simp [hstart])
    (by simpa [hstart] using hspace) (by simp; decide) value
  have hline : trim (stripCr (key ++ ("=" ++ value))) = key ++ ("=" ++ rest) := by
    rw [trim_stripCr, ← String.append_assoc, htrim, String.append_assoc]
  have hchars : (key ++ ("=" ++ rest)).toList = c :: (tail ++ '=' :: rest.toList) := by
    simp [hlist]
  have hsplit : splitOnce (key ++ ("=" ++ rest)) '=' = some (key, rest) :=
    splitOnce_append hkey.equals_not_mem rest
  have hne : key ++ ("=" ++ rest) ≠ "" := by
    intro hempty
    rw [hempty] at hchars
    cases hchars
  have hcomment : ¬ (startsWith (key ++ ("=" ++ rest)) "#" ∨
      startsWith (key ++ ("=" ++ rest)) "!") := by
    simp [startsWith, hchars, hhash.symm, hbang.symm]
  rw [readMetaLine, hline, if_neg (not_or.2 ⟨hne, hcomment⟩), hsplit]
  simp only [hkey.trim_eq, hrest]

/-- Printed integers and UUIDs have no white space. -/
theorem not_whiteSpace_toString {n : Int} {c : Char} (h : c ∈ (toString n).toList) :
    isWhiteSpace c = false := by
  rcases isDigit_of_mem_toString h with hdigit | rfl
  · simp only [Char.isDigit, Bool.and_eq_true, decide_eq_true_eq] at hdigit
    have hlow : 48 ≤ c.toNat := hdigit.1
    have hhigh : c.toNat ≤ 57 := hdigit.2
    simp only [isWhiteSpace, Bool.or_eq_false_iff, Bool.and_eq_false_iff, decide_eq_false_iff_not]
    omega
  · decide

theorem not_whiteSpace_hyphenated {id : Uuid} {c : Char} (h : c ∈ id.hyphenated.toList) :
    isWhiteSpace c = false := by
  have hall : "0123456789abcdef".toList.all (!isWhiteSpace ·) = true := by decide
  rcases Uuid.mem_hyphenated h with rfl | hhex
  · decide
  · simpa using List.all_eq_true.1 hall c hhex

theorem newline_not_mem {s : String} (h : ∀ c ∈ s.toList, isWhiteSpace c = false) :
    '\n' ∉ s.toList := by
  intro hmem
  have hspace := h _ hmem
  revert hspace
  decide

theorem solidKey_version : SolidKey "version" :=
  ⟨by decide, by decide, _, _, rfl, by decide, by decide, by decide⟩
theorem solidKey_clusterId : SolidKey "cluster.id" :=
  ⟨by decide, by decide, _, _, rfl, by decide, by decide, by decide⟩
theorem solidKey_nodeId : SolidKey "node.id" :=
  ⟨by decide, by decide, _, _, rfl, by decide, by decide, by decide⟩
theorem solidKey_directoryId : SolidKey "directory.id" :=
  ⟨by decide, by decide, _, _, rfl, by decide, by decide, by decide⟩

/-- A line that is a comment is passed over. -/
theorem readMetaLine_comment {line : String} (properties : MetaProperties)
    (h : startsWith (trim (stripCr line)) "#" = true) :
    readMetaLine properties (stripCr line) = .ok properties := by
  rw [readMetaLine, if_pos (.inr (.inl h))]

theorem metaLines_formattedMeta (clusterId : String) (nodeId : Int) (directoryId : Uuid) :
    metaLines (formattedMeta clusterId nodeId directoryId) =
      ["#", "# generated by kafka-cli storage format", "version" ++ ("=" ++ toString (1 : Int)),
        "cluster.id" ++ ("=" ++ clusterId), "node.id" ++ ("=" ++ toString nodeId),
        "directory.id" ++ ("=" ++ directoryId.hyphenated)] := by
  simp [metaLines, formattedMeta, ← String.append_assoc]

/-- The lines of a cluster id that is written, read behind the version. Unless there is a line
break in the cluster id they are one line, and only the cluster id is set. -/
def readClusterLines (clusterId : String) : Result MetaProperties :=
  ((split ("cluster.id" ++ ("=" ++ clusterId)) '\n').map stripCr).foldlM readMetaLine
    ⟨1, none, none, none⟩

theorem readMetaEntry_clusterId {properties properties' : MetaProperties} {key value : String}
    (h : readMetaEntry properties key value = .ok properties')
    (hsome : properties.clusterId.isSome = true) : properties'.clusterId.isSome = true := by
  unfold readMetaEntry at h
  split_ifs at h
  · split at h <;> cases h
    exact hsome
  · cases h
    rfl
  · split at h <;> cases h
    exact hsome
  · cases h
    exact hsome
  · cases h
    exact hsome

theorem readMetaLine_clusterId {properties properties' : MetaProperties} {line : String}
    (h : readMetaLine properties line = .ok properties')
    (hsome : properties.clusterId.isSome = true) : properties'.clusterId.isSome = true := by
  simp only [readMetaLine] at h
  split_ifs at h
  · cases h
    exact hsome
  · split at h
    · cases h
      exact hsome
    · exact readMetaEntry_clusterId h hsome

theorem foldlM_readMetaLine_clusterId {ls : List String} {properties properties' : MetaProperties}
    (h : ls.foldlM readMetaLine properties = .ok properties')
    (hsome : properties.clusterId.isSome = true) : properties'.clusterId.isSome = true := by
  induction ls generalizing properties with
  | nil =>
    cases h
    exact hsome
  | cons line rest ih =>
    rw [List.foldlM_cons, bind_eq_ok] at h
    obtain ⟨middle, hline, hrest⟩ := h
    exact ih hrest (readMetaLine_clusterId hline hsome)

/-- There is always a cluster id. -/
theorem readClusterLines_clusterId {clusterId : String} {properties : MetaProperties}
    (h : readClusterLines clusterId = .ok properties) : properties.clusterId.isSome = true := by
  obtain ⟨piece, rest, -, hsplit⟩ :=
    split_append (show '\n' ∉ "cluster.id=".toList by decide) clusterId
  rw [readClusterLines, ← String.append_assoc, show "cluster.id" ++ "=" = "cluster.id=" from rfl,
    hsplit, List.map_cons, List.foldlM_cons, bind_eq_ok] at h
  obtain ⟨middle, hline, hrest⟩ := h
  apply foldlM_readMetaLine_clusterId hrest
  have hkey : "cluster.id=" ++ piece = "cluster.id" ++ ("=" ++ piece) := by
    rw [← String.append_assoc]
    rfl
  rw [hkey, readMetaLine_entry solidKey_clusterId, readMetaEntry, if_neg (by decide),
    if_pos rfl] at hline
  cases hline
  rfl

theorem readClusterLines_of_not_mem {clusterId : String} (h : '\n' ∉ clusterId.toList) :
    readClusterLines clusterId = .ok ⟨1, some (trim clusterId), none, none⟩ := by
  have hline : '\n' ∉ ("cluster.id" ++ ("=" ++ clusterId)).toList := by
    simp only [String.toList_append, List.mem_append, h, or_false]
    decide
  rw [readClusterLines, split_eq_singleton hline, List.map_singleton, List.foldlM_cons,
    readMetaLine_entry solidKey_clusterId, readMetaEntry, if_neg (by decide), if_pos rfl, ok_bind,
    List.foldlM_nil]
  rfl

/-- The lines of a new file, as the reader finds them. -/
theorem lines_metaText (clusterId : String) (nodeId : Int) (directoryId : Uuid) :
    lines (metaText (formattedMeta clusterId nodeId directoryId)) =
      ["#", "# generated by kafka-cli storage format", "version" ++ ("=" ++ toString (1 : Int))].map
          stripCr ++
        ((split ("cluster.id" ++ ("=" ++ clusterId)) '\n').map stripCr ++
          ["node.id" ++ ("=" ++ toString nodeId),
            "directory.id" ++ ("=" ++ directoryId.hyphenated)].map stripCr) := by
  have hnode : '\n' ∉ ("node.id" ++ ("=" ++ toString nodeId)).toList := by
    have hdigits : '\n' ∉ (toString nodeId).toList :=
      newline_not_mem fun _ => not_whiteSpace_toString
    simp only [String.toList_append, List.mem_append, hdigits, or_false]
    decide
  have hid : '\n' ∉ ("directory.id" ++ ("=" ++ directoryId.hyphenated)).toList := by
    have hhex : '\n' ∉ directoryId.hyphenated.toList :=
      newline_not_mem fun _ => not_whiteSpace_hyphenated
    simp only [String.toList_append, List.mem_append, hhex, or_false]
    decide
  rw [metaText, lines_unlines, metaLines_formattedMeta]
  simp only [List.flatMap_cons, List.flatMap_nil, split_eq_singleton hnode, split_eq_singleton hid,
    List.map_cons, List.map_nil, List.append_nil]
  rfl

/-- What the reader finds in a new file: the entries of the cluster id's lines, the node id and
the directory id. -/
theorem readMetaText_metaText (clusterId : String) {nodeId : Int} (directoryId : Uuid)
    (hlow : -2 ^ 31 ≤ nodeId) (hhigh : nodeId < 2 ^ 31) :
    readMetaText (metaText (formattedMeta clusterId nodeId directoryId)) =
      (readClusterLines clusterId).map fun properties =>
        { properties with nodeId := some nodeId, directoryId := some directoryId.hyphenated } := by
  have hversion : parseI32 (trim (toString (1 : Int))) = .ok 1 := by decide
  have hnode : parseI32 (trim (toString nodeId)) = .ok nodeId := by
    rw [trim_eq_self fun _ => not_whiteSpace_toString]
    exact parseSigned_toString (by simpa using hlow) (by omega)
  have hid : trim directoryId.hyphenated = directoryId.hyphenated :=
    trim_eq_self fun _ => not_whiteSpace_hyphenated
  have hhead : (["#", "# generated by kafka-cli storage format",
      "version" ++ ("=" ++ toString (1 : Int))].map stripCr).foldlM readMetaLine
        ⟨0, none, none, none⟩ = .ok ⟨1, none, none, none⟩ := by
    simp only [List.map_cons, List.map_nil, List.foldlM_cons, List.foldlM_nil]
    rw [readMetaLine_comment _ (by decide), ok_bind, readMetaLine_comment _ (by decide), ok_bind,
      readMetaLine_entry solidKey_version, readMetaEntry, if_pos rfl, hversion]
    rfl
  rw [readMetaText, lines_metaText, List.foldlM_append, hhead, ok_bind, List.foldlM_append,
    ← readClusterLines]
  cases hcluster : readClusterLines clusterId with
  | error error => rfl
  | ok properties =>
    have hsome := readClusterLines_clusterId hcluster
    simp only [List.map_cons, List.map_nil, List.foldlM_cons, List.foldlM_nil, ok_bind]
    rw [readMetaLine_entry solidKey_nodeId, readMetaEntry, if_neg (by decide), if_neg (by decide),
      if_pos (.inl rfl), hnode, ok_bind, readMetaLine_entry solidKey_directoryId, readMetaEntry,
      if_neg (by decide), if_neg (by decide), if_neg (by decide), if_pos rfl, hid]
    simp [failIf, Option.isSome_iff_ne_none.1 hsome, Except.map]

end KafkaCli.Storage
