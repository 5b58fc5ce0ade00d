import QuorumKv.Proofs.Node.Exchange
import QuorumKv.Proofs.Quorum.Forward
import QuorumKv.Proofs.Store.Change

/-! Metadata of a key, from the query that the proxy sends to the answer that it reads. The node and
the proxy always understand each other, but of a key that is itself a query they talk about another
one. -/
namespace QuorumKv

namespace Meta

theorem ofLine_of_bounded {m : Meta} (bounded : m.IsBounded) : ofLine m.line = .ok m := by
  rw [ofLine, splitWords_line, ofFields?_words m bounded]
  rfl

/-- Seven numbers and the six spaces between them. -/
theorem utf8ByteSize_line_le {m : Meta} (bounded : m.IsBounded) : m.line.utf8ByteSize ≤ 116 := by
  obtain ⟨size, timestamp, offset⟩ := bounded
  have below64 {n : Nat} (small : n < Text.bound64) : (toString n).utf8ByteSize ≤ 20 :=
    Text.utf8ByteSize_toString_le (by decide) (Nat.lt_trans small (by decide))
  have below32 (n : UInt32) : (toString n.toNat).utf8ByteSize ≤ 10 :=
    Text.utf8ByteSize_toString_le (by decide) (Nat.lt_trans n.toNat_lt (by decide))
  have rev := Text.utf8ByteSize_revision_le m.rev
  have hash := below32 m.hash
  have flags := below32 m.flags
  have size := below64 size
  have timestamp := below64 timestamp
  have chunk := below32 m.chunk
  have offset := below64 offset
  rw [line_eq, words]
  simp (disch := simp) only [Wire.utf8ByteSize_words_cons, String.intercalate_singleton]
  omega

/-- As a value, under the revision of the record. -/
def item (m : Meta) : Item :=
  ⟨0, Text.Utf8.encode m.line, m.rev⟩

theorem length_item_le {m : Meta} (bounded : m.IsBounded) : m.item.value.length ≤ 116 := by
  rw [item, Text.Utf8.length_encode]
  exact utf8ByteSize_line_le bounded

end Meta

namespace Ask

/-- The longest key whose metadata always travels on lines that are read whole. -/
def metaKeyMax : Nat := 8177

variable {key : String}

theorem length_metaRequest (key : String) :
    (Wire.getRequest [Key.metaQueryFor key] false).length = key.utf8ByteSize + 7 := by
  have name : "get".utf8ByteSize = 3 := rfl
  rw [Wire.getRequest_eq false (by simp), Wire.length_line,
    Wire.utf8ByteSize_words_cons _ _ (by simp), String.intercalate_singleton,
    Key.utf8ByteSize_metaQueryFor]
  simp only [Bool.false_eq_true, if_false, name]
  omega

/-- The announcement of an answer fits on a line as well. -/
theorem length_metaHeader_le {m : Meta} (bounded : m.IsBounded)
    (short : key.utf8ByteSize ≤ metaKeyMax) :
    (Wire.line (Wire.valueHeader (Key.metaQueryFor key) m.item false)).length ≤ Wire.maxLine := by
  have length := Meta.length_item_le bounded
  have name : "VALUE".utf8ByteSize = 5 := rfl
  have flags : (toString m.item.flags.toNat).utf8ByteSize ≤ 1 :=
    Text.utf8ByteSize_toString_le (by decide) (show 0 < 10 ^ 1 by decide)
  have size : (toString m.item.value.length).utf8ByteSize ≤ 3 :=
    Text.utf8ByteSize_toString_le (by decide) (by omega)
  simp only [metaKeyMax] at short
  rw [Wire.length_line, Wire.valueHeader_eq, Wire.maxLine]
  simp only [Wire.valueWords, Bool.false_eq_true, if_false, List.append_nil]
  simp (disch := simp) only [Wire.utf8ByteSize_words_cons, String.intercalate_singleton, name,
    Key.utf8ByteSize_metaQueryFor]
  omega

/-- The length of the key alone decides whether its query is read. -/
theorem readFrame_metaRequest (bodyMax : Nat) (ended : Bool) (more : Bytes)
    (word : Text.IsWord key) :
    Wire.readFrame bodyMax ended ((getMeta key).toWire ++ more) =
      if key.utf8ByteSize + 7 ≤ Wire.maxLine then
        some (.request (.get [Key.metaQueryFor key] false), more)
      else some (.rejected (.protocol "line too long"),
        (getMeta key).toWire.drop Wire.maxLine ++ more) := by
  have words : ∀ w ∈ [Key.metaQueryFor key], Text.IsWord w := by
    simpa using Key.isWord_metaQueryFor word
  have length := length_metaRequest key
  rw [toWire]
  by_cases fits : key.utf8ByteSize + 7 ≤ Wire.maxLine
  · rw [if_pos fits]
    exact Wire.readFrame_getRequest more (by simp) words (length ▸ fits)
  · rw [if_neg fits, Wire.getRequest_eq false (by simp)] at *
    exact Wire.readFrame_line_long more (Wire.lf_notMem_words (Wire.isWord_getWords false words))
      (by omega)

/-- What a node finds for the query. -/
theorem found_metaQuery (store : Store) (filled : key ≠ "") :
    Node.found store false [Key.metaQueryFor key] =
      ((store.getMeta? (Key.queried key)).map fun m => (Key.metaQueryFor key, m.item)).toList := by
  simp only [found_one, Node.find?, Key.metaQuery?_metaQueryFor filled]
  cases store.getMeta? (Key.queried key) <;> rfl

/-- The proxy reads exactly what the node found. -/
theorem readAnswer_metaReply (node : String) (bodyMax : Nat) (ended : Bool) (store : Store)
    (left : Bytes) (word : Text.IsWord key) (short : key.utf8ByteSize ≤ metaKeyMax)
    (bounded : ∀ m, store.getMeta? (Key.queried key) = some m → m.IsBounded) :
    readAnswer node bodyMax ended
      (Wire.values (Node.found store false [Key.metaQueryFor key]) false ++ left) (getMeta key) =
      some ⟨.ok (store.getMeta? (Key.queried key)), true, left⟩ := by
  have found := found_metaQuery store word.filled
  have read : Wire.readValues metaMax ended
      (Wire.values (Node.found store false [Key.metaQueryFor key]) false ++ left) =
      .done ((Node.found store false [Key.metaQueryFor key]).map
        fun entry => (entry.1, Wire.shown false entry.2)) left := by
    apply Wire.readValuesAfter_values []
    all_goals
      intro entry listed
      rw [found, Option.mem_toList, Option.map_eq_some_iff] at listed
      obtain ⟨m, held, rfl⟩ := listed
    · exact Key.isWord_metaQueryFor word
    · exact length_metaHeader_le (bounded m held) short
    · have length := Meta.length_item_le (bounded m held)
      exact ⟨Nat.le_trans length (by decide), by
        simp only [Text.bound64]
        omega⟩
  rw [readAnswer, read, found]
  cases held : store.getMeta? (Key.queried key) with
  | none => rfl
  | some m =>
    have parsed := Meta.ofLine_of_bounded (bounded m held)
    simp only [Option.map_some, Option.toList_some, List.map_cons, List.map_nil,
      Exchange.ofReading, metaOf, Wire.shown, Bool.false_eq_true, if_false, Meta.item,
      Text.Utf8.decodeLossy_encode, parsed]
    rfl

/-- Of a key that is itself a query, some store answers with something else. -/
theorem queried_agrees_iff (key : String) :
    (∀ changes : List Store.Change, (Store.empty.after changes).getMeta? (Key.queried key) =
      (Store.empty.after changes).getMeta? key) ↔ Key.metaQuery? key = none := by
  rw [← Key.queried_eq_self_iff]
  refine ⟨fun agrees => ?_, fun same changes => by rw [same]⟩
  by_contra other
  have one := agrees [.set key ⟨0, [], .auto⟩ 0]
  obtain ⟨r, there, -⟩ := Store.record?_set_auto .empty key ⟨0, [], .auto⟩ 0 rfl
  have absent := Store.record?_set_ne (s := .empty) ⟨0, [], .auto⟩ 0 (Ne.symm other)
  have stored : (Store.empty.after [.set key ⟨0, [], .auto⟩ 0]).getMeta? key = some r.toMeta :=
    congrArg (Option.map Record.toMeta) there
  have nothing : (Store.empty.after [.set key ⟨0, [], .auto⟩ 0]).getMeta? (Key.queried key) =
      none :=
    congrArg (Option.map Record.toMeta) absent
  rw [stored, nothing] at one
  cases one

/-- The query for a key is one request, and the proxy reads off the reply the metadata of the key
that the node took it for, or nothing when the store has no record of that. This is the metadata of
the key itself in every store exactly when the key is no query. With two marks in front, every key
would be taken for itself. A key that is too long for its query to fit on a line is not asked for. -/
theorem metadata_of_queried {maxLength : Nat} (valid : Key.validate maxLength key = .ok ()) :
    (key.utf8ByteSize ≤ metaKeyMax → ∀ limits now node bodyMax ended store more left,
      (∀ m, store.getMeta? (Key.queried key) = some m → m.IsBounded) →
      let frame : Wire.Frame := .request (.get [Key.metaQueryFor key] false)
      Wire.readFrame limits.bodyMax ended ((getMeta key).toWire ++ more) = some (frame, more) ∧
        (Node.reply limits now frame store).2 = store ∧
        readAnswer node bodyMax ended ((Node.reply limits now frame store).1 ++ left)
          (getMeta key) = some ⟨.ok (store.getMeta? (Key.queried key)), true, left⟩) ∧
    ((∀ changes : List Store.Change, (Store.empty.after changes).getMeta? (Key.queried key) =
      (Store.empty.after changes).getMeta? key) ↔ Key.metaQuery? key = none) ∧
    Key.metaQuery? ("??" ++ key) = some key ∧
    (Wire.maxLine < key.utf8ByteSize + 7 → ∀ bodyMax ended more,
      Wire.readFrame bodyMax ended ((getMeta key).toWire ++ more) =
        some (.rejected (.protocol "line too long"),
          (getMeta key).toWire.drop Wire.maxLine ++ more)) := by
  have word := (Key.isWord_of_validate valid).1
  refine ⟨?_, queried_agrees_iff key, Key.metaQuery?_double word.filled, ?_⟩
  · intro short limits now node bodyMax ended store more left bounded frame
    have fits : key.utf8ByteSize + 7 ≤ Wire.maxLine := by
      simp only [metaKeyMax] at short
      simp only [Wire.maxLine]
      omega
    refine ⟨?_, rfl, readAnswer_metaReply node bodyMax ended store left word short bounded⟩
    rw [readFrame_metaRequest limits.bodyMax ended more word, if_pos fits]
  · intro long bodyMax ended more
    rw [readFrame_metaRequest bodyMax ended more word, if_neg (Nat.not_le.mpr long)]

/-- Two keys of which one is the query for the other. -/
def markedStore : Store :=
  Store.empty.after [.set "x" ⟨0, [97], .clamp 5⟩ 0, .set "?x" ⟨1, [98, 98], .clamp 9⟩ 0]

/-- Asked for the one, the node tells of the other. -/
theorem metadata_of_marked :
    Key.validate 250 "?x" = .ok () ∧
      readAnswer "n1" 1024 false (Node.reply ⟨250, 1024⟩ 0
        (.request (.get [Key.metaQueryFor "?x"] false)) markedStore).1 (getMeta "?x") =
        some ⟨.ok (markedStore.getMeta? "x"), true, []⟩ ∧
      (markedStore.getMeta? "x").map (fun m => m.rev.val) = some 5 ∧
      (markedStore.getMeta? "?x").map (fun m => m.rev.val) = some 9 := by
  have valid : Key.validate 250 "?x" = .ok () := by decide
  obtain ⟨answers, -, -, -⟩ := metadata_of_queried valid
  have told := (answers (by decide) ⟨250, 1024⟩ 0 "n1" 1024 false markedStore [] [] ?_).2.2
  · rw [List.append_nil] at told
    exact ⟨valid, told, by decide +kernel, by decide +kernel⟩
  · intro m held
    have known : markedStore.getMeta? "x" = some ⟨.clamp 5, 3904355907, 0, 1, 0, 0, 0⟩ := by
      decide +kernel
    obtain rfl := Option.some.inj (known.symm.trans held)
    exact ⟨by decide, by decide, by decide⟩

end Ask

end QuorumKv
