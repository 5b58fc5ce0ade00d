import QuorumKv.Proofs.Quorum.Fetch
import QuorumKv.Proofs.Text.Lossy

/-! A get that a client sent, and the line on which its keys go on to a node. That line begins with
a longer command and ends with both bytes of a line end, so it may be up to two bytes longer. -/
namespace QuorumKv.Wire

theorem length_splitLine_le (n : Nat) (bytes : Bytes) : (splitLine n bytes).1.length ≤ n := by
  induction n generalizing bytes with
  | zero => simp [splitLine]
  | succ n ih =>
    cases bytes with
    | nil => simp [splitLine]
    | cons b bytes =>
      rw [splitLine]
      split
      · simp
      · simpa using ih bytes

theorem accept_ne_get (s : SetLine) (block : Bytes) (keys : List String) (withRev : Bool) :
    s.accept block ≠ .request (.get keys withRev) := by
  unfold SetLine.accept
  split
  · exact Frame.noConfusion
  · split <;> simp

/-- No data block makes a get. -/
theorem readBlock_ne_get {s : SetLine} {bodyMax : Nat} {ended withRev : Bool} {bytes rest : Bytes}
    {keys : List String} : s.readBlock bodyMax ended bytes ≠
      some (.request (.get keys withRev), rest) := by
  intro read
  unfold SetLine.readBlock at read
  split at read
  · simp at read
  · split at read
    · split at read <;> simp at read
    · dsimp only at read
      split at read
      · exact accept_ne_get s _ keys withRev (Prod.mk.inj (Option.some.inj read)).1
      · split at read <;> simp at read

theorem readCommand_get {bodyMax : Nat} {ended withRev : Bool} {command : String}
    {args keys : List String} {bytes rest : Bytes}
    (read : readCommand bodyMax ended command args bytes =
      some (.request (.get keys withRev), rest)) :
    command = (if withRev then "gets" else "get") ∧ args = keys ∧ keys ≠ [] ∧ bytes = rest := by
  have said {asked : Bool} (got : some (getCommand asked args, bytes) =
      some (.request (.get keys withRev), rest)) :
      asked = withRev ∧ args = keys ∧ keys ≠ [] ∧ bytes = rest := by
    unfold getCommand at got
    split at got
    · simp at got
    · rename_i filled
      simp only [Option.some.injEq, Prod.mk.injEq, Frame.request.injEq, Request.get.injEq] at got
      obtain ⟨⟨rfl, rfl⟩, rfl⟩ := got
      exact ⟨rfl, rfl, by simpa using filled, rfl⟩
  unfold readCommand at read
  split at read
  · split at read
    · exact absurd read readBlock_ne_get
    · simp at read
  · split at read
    · obtain ⟨rfl, parts⟩ := said read
      exact ⟨‹_›, parts⟩
    · split at read
      · obtain ⟨rfl, parts⟩ := said read
        exact ⟨‹_›, parts⟩
      · unfold deleteCommand at read
        repeat' split at read
        all_goals simp at read

/-- An accepted get stands on one line, behind blank ones that were skipped. -/
theorem readFrame_get {bodyMax : Nat} {ended withRev : Bool} {bytes rest : Bytes}
    {keys : List String}
    (read : readFrame bodyMax ended bytes = some (.request (.get keys withRev), rest)) :
    ∃ skipped text, bytes = skipped ++ (text ++ Bytes.lf :: rest) ∧ text.length < maxLine ∧
      Text.splitWords (Text.Utf8.decodeLossy (text ++ [Bytes.lf])) =
        (if withRev then "gets" else "get") :: keys ∧ keys ≠ [] := by
  fun_induction readFrame bodyMax ended bytes generalizing rest with
  | case1 => simp at read
  | case2 => simp at read
  | case3 => simp at read
  | case4 => simp at read
  | case5 bytes =>
    rename_i ih
    obtain ⟨skipped, text, parts, others⟩ := ih read
    refine ⟨(splitLine maxLine bytes).1 ++ skipped, text, ?_, others⟩
    rw [List.append_assoc, ← parts]
    exact (splitLine_append maxLine bytes).symm
  | case6 bytes =>
    rename_i closed _ _ said
    obtain ⟨rfl, rfl, some_key, rfl⟩ := readCommand_get read
    have whole := splitLine_append maxLine bytes
    have short := length_splitLine_le maxLine bytes
    obtain ⟨text, cut⟩ : ∃ text, (splitLine maxLine bytes).1 = text ++ [Bytes.lf] := by
      apply List.getLast?_eq_some_iff.mp
      simpa [endsLine] using closed
    rw [cut, List.length_append, List.length_singleton] at short
    rw [cut] at whole
    refine ⟨[], text, ?_, ?_, ?_, some_key⟩
    · simpa using whole.symm
    · exact short
    · rw [← cut]
      exact said

theorem readFrame_line_long {bodyMax : Nat} {ended : Bool} {text : String} (rest : Bytes)
    (whole : '\n' ∉ text.toList) (long : maxLine < (line text).length) :
    readFrame bodyMax ended (line text ++ rest) =
      some (.rejected (.protocol "line too long"), (line text).drop maxLine ++ rest) := by
  have full : ((line text).take maxLine).length = maxLine := by
    rw [List.length_take]
    omega
  have cut : endsLine ((line text).take maxLine) = false := by
    have absent := lf_notMem_take_line whole long
    rw [endsLine, beq_eq_false_iff_ne]
    exact fun last => absent (List.mem_of_getLast? last)
  unfold readFrame
  rw [dif_neg (line_ne_nil text rest)]
  simp [splitLine_line_long rest whole long, isOpen, full, cut]

/-- The length of its line alone decides whether a get is read as it was meant. -/
theorem readFrame_forwarded {bodyMax : Nat} {ended : Bool} {keys : List String} (rest : Bytes)
    (some_key : keys ≠ []) (word : ∀ key ∈ keys, Text.IsWord key) :
    readFrame bodyMax ended (getRequest keys true ++ rest) =
      if (getRequest keys true).length ≤ maxLine then some (.request (.get keys true), rest)
      else some (.rejected (.protocol "line too long"),
        (getRequest keys true).drop maxLine ++ rest) := by
  by_cases fits : (getRequest keys true).length ≤ maxLine
  · rw [if_pos fits, readFrame_getRequest rest some_key word fits]
  · rw [if_neg fits]
    rw [getRequest_eq true some_key] at fits ⊢
    exact readFrame_line_long rest (lf_notMem_words (isWord_getWords true word))
      (Nat.not_le.mp fits)

theorem lineRoom_eq {keys : List String}
    (whole : ∀ key ∈ keys, Text.Utf8.replacement ∉ key.toList) :
    total (keys.map fun key => Text.Utf8.leastRoom key.toList + 1) =
      Quorum.Fetch.lineRoom keys := by
  rw [Quorum.Fetch.lineRoom]
  congr 1
  apply List.map_congr_left
  intro key listed
  rw [Text.Utf8.leastRoom_of_whole (whole key listed)]

/-- The longer command and the longer line end cost one byte each. -/
theorem length_forwarded_le {withRev : Bool} {text : Bytes} {keys : List String}
    (some_key : keys ≠ []) (whole : ∀ key ∈ keys, Text.Utf8.replacement ∉ key.toList)
    (said : Text.splitWords (Text.Utf8.decodeLossy (text ++ [Bytes.lf])) =
      (if withRev then "gets" else "get") :: keys) :
    (getRequest keys true).length ≤ text.length + 1 + (if withRev then 1 else 2) := by
  have room := Text.room_splitWords_le text
  have command : Text.Utf8.leastRoom (if withRev then "gets" else "get").toList =
      if withRev then 4 else 3 := by
    cases withRev <;> rfl
  rw [said, List.map_cons, total, lineRoom_eq whole, command] at room
  rw [Quorum.Fetch.length_getRequest some_key]
  cases withRev
  · simp only [Bool.false_eq_true, if_false] at room ⊢
    omega
  · simp only [if_true] at room ⊢
    omega

theorem frames_blank {bodyMax : Nat} {blanks : Bytes} (plain : Bytes.lf ∉ blanks)
    (short : blanks.length < maxLine)
    (said : Text.splitWords (Text.Utf8.decodeLossy (blanks ++ [Bytes.lf])) = []) :
    frames bodyMax (blanks ++ [Bytes.lf]) = [.eof] := by
  have cut : splitLine maxLine (blanks ++ [Bytes.lf]) = (blanks ++ [Bytes.lf], []) :=
    splitLine_lf plain short
  have skipped : readFrame bodyMax true (blanks ++ [Bytes.lf]) = some (.eof, []) := by
    rw [readFrame, dif_neg (by simp)]
    simp only [cut]
    simp [isOpen, endsLine, said, readFrame]
  rw [frames, dif_neg (by simp)]
  split <;> simp_all

/-- What is left of a line that is one or two bytes too long is a blank line. -/
theorem frames_drop_line {bodyMax : Nat} {text : String} (long : maxLine < (line text).length)
    (bound : (line text).length ≤ maxLine + 2) :
    frames bodyMax ((line text).drop maxLine) = [.eof] := by
  rw [length_line, ← Text.Utf8.length_encode] at long bound
  rw [line, List.drop_append, List.drop_eq_nil_of_le (by omega), List.nil_append]
  obtain none | one : maxLine - (Text.Utf8.encode text).length = 0 ∨
      maxLine - (Text.Utf8.encode text).length = 1 := by omega
  · rw [none]
    apply @frames_blank bodyMax [Bytes.cr] (by decide) (by decide)
    have text : Text.Utf8.decodeLossy [Bytes.cr, Bytes.lf] = "\r\n" :=
      Text.Utf8.decodeLossy_encode "\r\n"
    exact (congrArg Text.splitWords text).trans
      (Text.splitWords_intercalate [] "\r\n" (by simp) (by simp [Text.isBlank]))
  · rw [one]
    apply @frames_blank bodyMax [] (by decide) (by decide)
    have text : Text.Utf8.decodeLossy [Bytes.lf] = "\n" := Text.Utf8.decodeLossy_encode "\n"
    exact (congrArg Text.splitWords text).trans
      (Text.splitWords_intercalate [] "\n" (by simp) (by simp [Text.isBlank]))

/-- A node refuses such a get with a single status line, and nothing is found for any of its
keys. -/
theorem session_forwarded_long {keys : List String} (limits : Config.Limits) (now : Nat)
    (store : Store) (some_key : keys ≠ []) (word : ∀ key ∈ keys, Text.IsWord key)
    (long : maxLine < (getRequest keys true).length)
    (bound : (getRequest keys true).length ≤ maxLine + 2) :
    Node.session limits now (Ask.getMulti keys).toWire store =
      ([line "CLIENT_ERROR bad command line format"], store) := by
  have read := @readFrame_forwarded limits.bodyMax true keys [] some_key word
  rw [if_neg (Nat.not_le.mpr long), List.append_nil, List.append_nil] at read
  have all : frames limits.bodyMax (getRequest keys true) =
      [.rejected (.protocol "line too long"), .eof] := by
    rw [frames_cons (List.ne_nil_of_length_pos (by omega)) read (by simp) (by simp)]
    rw [getRequest_eq true some_key] at long bound ⊢
    rw [frames_drop_line long bound]
  rw [Ask.toWire, Node.session, all]
  rfl

/-- Every get that a client may send is forwarded on a line at most two bytes longer than its own,
and a node reads the same keys from it unless these bytes are too many for a line. Then the node
refuses it, and the call fails. -/
theorem forwarded_get {maxKey bodyMax : Nat} {ended withRev : Bool} {bytes rest : Bytes}
    {keys : List String}
    (accepted : readFrame bodyMax ended bytes = some (.request (.get keys withRev), rest))
    (valid : ∀ key ∈ keys, Key.validate maxKey key = .ok ()) :
    ∃ skipped text, bytes = skipped ++ (text ++ Bytes.lf :: rest) ∧ text.length + 1 ≤ maxLine ∧
      (getRequest keys true).length ≤ text.length + 1 + (if withRev then 1 else 2) ∧
      (∀ (nodeMax : Nat) (nodeEnded : Bool) (more : Bytes),
        readFrame nodeMax nodeEnded (getRequest keys true ++ more) =
          if (getRequest keys true).length ≤ maxLine then some (.request (.get keys true), more)
          else some (.rejected (.protocol "line too long"),
            (getRequest keys true).drop maxLine ++ more)) ∧
      (maxLine < (getRequest keys true).length →
        ∀ (limits : Config.Limits) (now : Nat) (store : Store) (node : String) (readMax : Nat),
          ∃ why, Ask.readAnswer node readMax false
            (Node.session limits now (Ask.getMulti keys).toWire store).1.flatten
            (.getMulti keys) = some ⟨.error why, false, []⟩) := by
  obtain ⟨skipped, text, parts, short, said, some_key⟩ := readFrame_get accepted
  have word : ∀ key ∈ keys, Text.IsWord key := fun key listed =>
    (Key.isWord_of_validate (valid key listed)).1
  have whole : ∀ key ∈ keys, Text.Utf8.replacement ∉ key.toList := fun key listed =>
    Key.replacement_notMem (valid key listed)
  have grown := length_forwarded_le some_key whole said
  refine ⟨skipped, text, parts, short, grown,
    fun _ _ more => readFrame_forwarded more some_key word, ?_⟩
  intro long limits now store node readMax
  have bound : (getRequest keys true).length ≤ maxLine + 2 := by
    split at grown <;> omega
  rw [session_forwarded_long limits now store some_key word long bound, List.flatten_singleton]
  exact Ask.readAnswer_refused_getMulti node keys readMax

/-- A get with nothing but a line feed behind its last key. -/
def bareGet (keys : List String) : Bytes :=
  Text.Utf8.encode (" ".intercalate ("get" :: keys)) ++ [Bytes.lf]

theorem length_bareGet {keys : List String} (some_key : keys ≠ []) :
    (bareGet keys).length = Quorum.Fetch.lineRoom keys + 4 := by
  have size := Quorum.Fetch.size_intercalate keys some_key
  have name : "get".utf8ByteSize = 3 := rfl
  rw [bareGet, List.length_append, Text.Utf8.length_encode, utf8ByteSize_words_cons _ _ some_key,
    name, List.length_singleton]
  omega

theorem readFrame_bareGet {bodyMax : Nat} {ended : Bool} {keys : List String} (rest : Bytes)
    (some_key : keys ≠ []) (word : ∀ key ∈ keys, Text.IsWord key)
    (fits : (bareGet keys).length ≤ maxLine) :
    readFrame bodyMax ended (bareGet keys ++ rest) = some (.request (.get keys false), rest) := by
  have words := isWord_getWords false word
  have whole : Bytes.lf ∉ Text.Utf8.encode (" ".intercalate ("get" :: keys)) :=
    fun listed => lf_notMem_words words ((Text.Utf8.lf_mem_encode _).mp listed)
  have cut : splitLine maxLine (bareGet keys ++ rest) = (bareGet keys, rest) := by
    rw [bareGet, List.append_assoc, List.singleton_append]
    apply splitLine_lf whole
    rwa [bareGet, List.length_append, List.length_singleton] at fits
  have said : Text.splitWords (Text.Utf8.decodeLossy (bareGet keys)) = "get" :: keys := by
    rw [bareGet, Text.Utf8.decodeLossy_lf, Text.Utf8.decodeLossy_encode]
    exact Text.splitWords_intercalate _ "\n" words (by simp [Text.isBlank])
  rw [readFrame_cut (by simp [bareGet]) cut (by simp [endsLine, bareGet]) said]
  exact @readCommand_getWords bodyMax ended false keys rest some_key

/-- Two lengths of such a line are accepted from a client and are too long to be forwarded. -/
theorem long_of_bareGet {keys : List String} (some_key : keys ≠ []) :
    maxLine < (getRequest keys true).length ↔ maxLine - 2 < (bareGet keys).length := by
  rw [length_bareGet some_key, Quorum.Fetch.length_getRequest some_key, maxLine]
  omega

/-- A get of 8192 bytes. -/
def longKeys : List String :=
  List.replicate 92 (String.ofList (List.replicate 88 'k'))

theorem validate_longKeys : ∀ key ∈ longKeys, Key.validate 250 key = .ok () := by
  intro key listed
  rw [List.eq_of_mem_replicate listed]
  decide

theorem length_bareGet_longKeys : (bareGet longKeys).length = maxLine := by
  rw [length_bareGet (by decide)]
  decide

theorem forwarded_get_longKeys :
    readFrame 1024 true (bareGet longKeys) = some (.request (.get longKeys false), []) ∧
      (∀ (nodeMax : Nat) (nodeEnded : Bool) (more : Bytes),
        readFrame nodeMax nodeEnded (getRequest longKeys true ++ more) =
          some (.rejected (.protocol "line too long"),
            (getRequest longKeys true).drop maxLine ++ more)) ∧
      (∀ (limits : Config.Limits) (now : Nat) (store : Store) (node : String) (readMax : Nat),
        ∃ why, Ask.readAnswer node readMax false
          (Node.session limits now (Ask.getMulti longKeys).toWire store).1.flatten
          (.getMulti longKeys) = some ⟨.error why, false, []⟩) := by
  have some_key : longKeys ≠ [] := by decide
  have word : ∀ key ∈ longKeys, Text.IsWord key := fun key listed =>
    (Key.isWord_of_validate (validate_longKeys key listed)).1
  have accepted : readFrame 1024 true (bareGet longKeys) =
      some (.request (.get longKeys false), []) := by
    have read := @readFrame_bareGet 1024 true longKeys [] some_key word
      (Nat.le_of_eq length_bareGet_longKeys)
    rwa [List.append_nil] at read
  have long : maxLine < (getRequest longKeys true).length := by
    rw [long_of_bareGet some_key, length_bareGet_longKeys]
    decide
  obtain ⟨_, _, _, _, _, read, refused⟩ := forwarded_get accepted validate_longKeys
  refine ⟨accepted, fun nodeMax nodeEnded more => ?_, refused long⟩
  rw [read, if_neg (Nat.not_le.mpr long)]

end QuorumKv.Wire
