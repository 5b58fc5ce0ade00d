import QuorumKv.Proofs.Wire.Request

/-! What a node answers is read back by the proxy. Values that the proxy does not accept end the
reading with a failure, never with a wrong item. -/
namespace QuorumKv.Wire

theorem readLine_line (ended : Bool) {text : String} (rest : Bytes) (whole : '\n' ∉ text.toList)
    (fits : (line text).length ≤ maxLine) (plain : EndsPlain text) :
    readLine ended (line text ++ rest) = .done text rest := by
  unfold readLine
  rw [if_neg (line_ne_nil text rest)]
  simp only [splitLine_line rest whole fits, isOpen_line, Bool.false_eq_true, if_false,
    lineText_line plain]

/-- The words on the line that announces a value. -/
def valueWords (key : String) (item : Item) (withRev : Bool) : List String :=
  ["VALUE", key, toString item.flags.toNat, toString item.value.length] ++
    if withRev then [toString item.rev.val] else []

theorem valueHeader_eq (key : String) (item : Item) (withRev : Bool) :
    valueHeader key item withRev = " ".intercalate (valueWords key item withRev) := by
  have same (text : String) : toString text = text := rfl
  cases withRev <;>
    simp only [valueHeader, valueWords, if_true, Bool.false_eq_true, if_false, List.append_nil,
      List.cons_append, List.nil_append, String.intercalate_cons_cons,
      String.intercalate_singleton] <;>
    simp [← String.toList_inj, same]

theorem isWord_valueWords {key : String} (item : Item) (withRev : Bool)
    (carried : Text.IsWord key) : ∀ w ∈ valueWords key item withRev, Text.IsWord w := by
  intro w listed
  simp only [valueWords, List.mem_append, List.mem_cons, List.not_mem_nil, or_false] at listed
  obtain (rfl | rfl | rfl | rfl) | rev := listed
  · exact isWord_command (by simp)
  · exact carried
  · exact Text.isWord_toString_nat _
  · exact Text.isWord_toString_nat _
  · cases withRev with
    | false => simp at rev
    | true =>
      obtain rfl := List.mem_singleton.mp rev
      exact Text.isWord_toString_int _

/-- An item as a reader gets it, who may not have been told the revision. -/
def shown (withRev : Bool) (item : Item) : Item :=
  if withRev then item else { item with rev := .auto }

theorem valueFields?_words (key : String) (item : Item) (withRev : Bool) :
    valueFields? (key :: toString item.flags.toNat :: toString item.value.length ::
      if withRev then [toString item.rev.val] else []) =
      if item.value.length < Text.bound64 then
        some ⟨key, item.flags, item.value.length, (shown withRev item).rev⟩
      else none := by
  have rev := Text.revision_toString item.rev
  by_cases small : item.value.length < Text.bound64
  · cases withRev
    · simp [valueFields?, Text.uint32?_toString, Text.uint64?_toString, small, shown,
        -Nat.toString_eq_repr]
    · simp only [valueFields?, Text.uint32?_toString, Text.uint64?_toString, small, if_true,
        Option.bind_eq_bind, Option.bind_some, rev, shown]
      rfl
  · simp [valueFields?, Text.uint32?_toString, Text.uint64?_toString, small,
      -Nat.toString_eq_repr]

/-- What the announcement of a value is taken for. -/
theorem valueLine_header (bodyMax : Nat) {key : String} (item : Item) (withRev : Bool)
    (carried : Text.IsWord key) :
    valueLine bodyMax (valueHeader key item withRev) =
      if Text.bound64 ≤ item.value.length then
        throw (.protocol ("bad VALUE line: " ++ valueHeader key item withRev))
      else if bodyMax < item.value.length then
        throw (.protocol s!"value of {item.value.length} bytes exceeds limit")
      else pure ⟨key, item.flags, item.value.length, (shown withRev item).rev⟩ := by
  have parts := Text.splitAtEach_words (valueWords key item withRev) (by simp [valueWords])
    (isWord_valueWords _ _ carried)
  rw [← valueHeader_eq] at parts
  have fields := valueFields?_words key item withRev
  unfold valueLine
  rw [parts]
  simp only [valueWords, List.cons_append, List.nil_append]
  rw [fields]
  by_cases small : item.value.length < Text.bound64
  · simp only [small, if_true, Nat.not_le.mpr small, if_false]
  · simp only [small, if_false, Nat.not_lt.mp small, if_true]

/-- With a size of 64 bits the announcement fits on a line. -/
theorem length_header_le {key : String} {item : Item} {withRev : Bool} (carried : CarriesKey key)
    (small : item.value.length < Text.bound64) :
    (line (valueHeader key item withRev)).length ≤ maxLine := by
  have short := carried.short
  have name : "VALUE".utf8ByteSize = 5 := rfl
  have flags : (toString item.flags.toNat).utf8ByteSize ≤ 10 :=
    Text.utf8ByteSize_toString_le (by decide) (Nat.lt_trans item.flags.toNat_lt (by decide))
  have size : (toString item.value.length).utf8ByteSize ≤ 20 :=
    Text.utf8ByteSize_toString_le (by decide) (Nat.lt_trans small (by decide))
  have rev := Text.utf8ByteSize_revision_le item.rev
  rw [length_line, valueHeader_eq, maxLine]
  cases withRev
  · simp only [valueWords, Bool.false_eq_true, if_false, List.append_nil]
    rw [utf8ByteSize_words_cons _ _ (by simp), utf8ByteSize_words_cons _ _ (by simp),
      utf8ByteSize_words_cons _ _ (by simp), String.intercalate_singleton, name]
    omega
  · simp only [valueWords, if_true, List.cons_append, List.nil_append]
    rw [utf8ByteSize_words_cons _ _ (by simp), utf8ByteSize_words_cons _ _ (by simp),
      utf8ByteSize_words_cons _ _ (by simp), utf8ByteSize_words_cons _ _ (by simp),
      String.intercalate_singleton, name]
    omega

/-- Whether a reader takes a value of some size. -/
def Accepts (bodyMax size : Nat) : Prop :=
  size ≤ bodyMax ∧ size + 2 < Text.bound64

theorem Accepts.small {bodyMax size : Nat} (accepted : Accepts bodyMax size) :
    size < Text.bound64 :=
  Nat.lt_of_succ_lt (Nat.lt_of_succ_lt accepted.2)

theorem readLine_header (ended : Bool) {key : String} (item : Item) {withRev : Bool}
    (rest : Bytes) (solid : Text.IsWord key)
    (fits : (line (valueHeader key item withRev)).length ≤ maxLine) :
    readLine ended (value key item withRev ++ rest) =
      .done (valueHeader key item withRev) (item.value ++ (Bytes.crlf ++ rest)) := by
  have word := isWord_valueWords item withRev solid
  have parts : value key item withRev ++ rest =
      line (valueHeader key item withRev) ++ (item.value ++ (Bytes.crlf ++ rest)) := by
    simp [value]
  rw [parts]
  apply readLine_line _ _ ?_ fits ?_
  · rw [valueHeader_eq]
    exact lf_notMem_words word
  · rw [valueHeader_eq]
    exact endsPlain_words word

theorem header_ne_end (key : String) (item : Item) (withRev : Bool) :
    valueHeader key item withRev ≠ "END" := by
  intro same
  have first := congrArg (fun text : String => text.toList.head?) same
  rw [valueHeader_eq] at first
  simp [valueWords, String.intercalate_cons_cons] at first

/-- One line of an answer and what belongs to it. -/
theorem readValuesAfter_line {bodyMax : Nat} {ended : Bool} {found : List (String × Item)}
    {bytes rest : Bytes} {text : String} (read : readLine ended bytes = .done text rest) :
    readValuesAfter bodyMax ended found bytes =
      if text = "END" then .done found.reverse rest
      else
        match valueLine bodyMax text with
        | .error why => .failed why rest
        | .ok v =>
          if (rest.take (blockLength v.size)).length = blockLength v.size then
            if (rest.take (blockLength v.size)).drop v.size = Bytes.crlf then
              readValuesAfter bodyMax ended
                ((v.key, ⟨v.flags, (rest.take (blockLength v.size)).take v.size, v.rev⟩) :: found)
                (rest.drop (blockLength v.size))
            else .failed (.protocol "bad data chunk from node") (rest.drop (blockLength v.size))
          else if ended then .failed (.io "early eof") []
          else .waiting := by
  rw [readValuesAfter]
  split
  · rename_i other
    rw [read] at other
    cases other
  · rename_i other
    rw [read] at other
    cases other
  · rename_i other
    rw [read] at other
    obtain ⟨rfl, rfl⟩ := Reading.done.inj other
    rfl

theorem readValuesAfter_error {bodyMax : Nat} {ended : Bool} {found : List (String × Item)}
    {bytes rest : Bytes} {text : String} {why : Failure}
    (read : readLine ended bytes = .done text rest) (more : text ≠ "END")
    (bad : valueLine bodyMax text = .error why) :
    readValuesAfter bodyMax ended found bytes = .failed why rest := by
  rw [readValuesAfter_line read, if_neg more, bad]

/-- Reading goes on behind a value that is accepted. -/
theorem readValuesAfter_value {bodyMax : Nat} {ended : Bool} {found : List (String × Item)}
    {key : String} {item : Item} {withRev : Bool} (rest : Bytes) (word : Text.IsWord key)
    (fits : (line (valueHeader key item withRev)).length ≤ maxLine)
    (accepted : Accepts bodyMax item.value.length) :
    readValuesAfter bodyMax ended found (value key item withRev ++ rest) =
      readValuesAfter bodyMax ended ((key, shown withRev item) :: found) rest := by
  have block : blockLength item.value.length = item.value.length + 2 :=
    Nat.mod_eq_of_lt accepted.2
  have size : (item.value ++ Bytes.crlf).length = item.value.length + 2 := by
    rw [List.length_append]
    rfl
  have taken : (item.value ++ (Bytes.crlf ++ rest)).take (item.value.length + 2) =
      item.value ++ Bytes.crlf := by rw [← List.append_assoc, ← size, List.take_left]
  have left : (item.value ++ (Bytes.crlf ++ rest)).drop (item.value.length + 2) = rest := by
    rw [← List.append_assoc, ← size, List.drop_left]
  have small : item.value.length < Text.bound64 := accepted.small
  have item_eq : (⟨item.flags, item.value, (shown withRev item).rev⟩ : Item) =
      shown withRev item := by cases withRev <;> rfl
  rw [readValuesAfter_line (readLine_header _ _ rest word fits),
    if_neg (header_ne_end key item withRev), valueLine_header _ _ _ word,
    if_neg (Nat.not_le.mpr small), if_neg (Nat.not_lt.mpr accepted.1)]
  simp only [pure, Except.pure, block, taken, left, size, if_true, List.drop_left,
    List.take_left, item_eq]

/-- When the two bytes of the line end do not fit into the size of the block, the block is not
taken for one. -/
theorem readValuesAfter_wrapped {bodyMax : Nat} {ended : Bool} {found : List (String × Item)}
    {key : String} {item : Item} {withRev : Bool} (rest : Bytes) (carried : CarriesKey key)
    (small : item.value.length < Text.bound64) (allowed : item.value.length ≤ bodyMax)
    (wraps : Text.bound64 ≤ item.value.length + 2) :
    ∃ why left, readValuesAfter bodyMax ended found (value key item withRev ++ rest) =
      .failed why left := by
  have block : blockLength item.value.length ≤ 1 := by
    simp only [blockLength, Text.bound64] at small wraps ⊢
    omega
  have long : 1 < item.value.length := by
    simp only [Text.bound64] at wraps
    omega
  have full : ((item.value ++ (Bytes.crlf ++ rest)).take
      (blockLength item.value.length)).length = blockLength item.value.length := by
    rw [List.length_take, List.length_append]
    omega
  have none_left : ((item.value ++ (Bytes.crlf ++ rest)).take
      (blockLength item.value.length)).drop item.value.length = [] :=
    List.drop_eq_nil_of_le (by omega)
  rw [readValuesAfter_line (readLine_header _ _ rest carried.word (length_header_le carried small)),
    if_neg (header_ne_end key item withRev), valueLine_header _ _ _ carried.word,
    if_neg (Nat.not_le.mpr small), if_neg (Nat.not_lt.mpr allowed)]
  simp only [pure, Except.pure, full, none_left, if_true]
  exact ⟨_, _, if_neg (by decide)⟩

/-- The announcement up to its size. -/
def headerStart (key : String) (item : Item) : List Char :=
  "VALUE".toList ++ ' ' :: (key.toList ++ ' ' :: ((toString item.flags.toNat).toList ++ [' ']))

/-- The announcement behind its size, with its line end. -/
def headerEnd (item : Item) (withRev : Bool) : List Char :=
  (if withRev then ' ' :: (toString item.rev.val).toList else []) ++ ['\r', '\n']

theorem toList_header (key : String) (item : Item) (withRev : Bool) :
    (valueHeader key item withRev ++ "\r\n").toList =
      headerStart key item ++ (Nat.toDigits 10 item.value.length ++ headerEnd item withRev) := by
  rw [valueHeader_eq]
  cases withRev <;>
    simp [valueWords, String.intercalate_cons_cons, String.intercalate_singleton, headerStart,
      headerEnd]

/-- Beyond twenty digits no size is read. -/
theorem valueLine_long (bodyMax : Nat) {key : String} {item : Item} {text : String}
    {c : Char} {cs more : List Char} (carried : Text.IsWord key)
    (begins : text.toList = headerStart key item ++ (c :: cs ++ more))
    (digits : ∀ d ∈ c :: cs, d.isDigit = true) (leading : c ≠ '0') (long : 20 ≤ cs.length) :
    ∃ why, valueLine bodyMax text = .error why := by
  have no_space {word : String} (solid : Text.IsWord word) : ' ' ∉ word.toList :=
    fun space => absurd (solid.whole _ space) (by decide)
  have tight : ' ' ∉ c :: cs := fun space => absurd (digits _ space) (by decide)
  obtain ⟨tail, others, parts⟩ := Text.splitAtEach_begins ' ' more tight
  have fields : Text.splitAtEach ' ' text.toList = "VALUE".toList :: key.toList ::
      (toString item.flags.toNat).toList :: (c :: cs ++ tail) :: others := by
    simp only [begins, headerStart, List.append_assoc, List.cons_append, List.nil_append]
    rw [Text.splitAtEach_append (no_space (isWord_command (by simp))),
      Text.splitAtEach_append (no_space carried),
      Text.splitAtEach_append (no_space (Text.isWord_toString_nat _))]
    exact congrArg (fun rest => _ :: _ :: _ :: rest) parts
  have size : Text.uint64? (String.ofList (c :: cs ++ tail)) = none := by
    rw [Text.uint64?, String.toList_ofList, List.cons_append]
    exact Text.unsigned?_long (digits c List.mem_cons_self) leading
      (Nat.le_trans long (by simp))
  refine ⟨.protocol ("bad VALUE line: " ++ text), ?_⟩
  unfold valueLine
  simp only [fields, List.map_cons, String.ofList_toList, valueFields?, size, Option.bind_eq_bind,
    Option.bind_none, Option.bind_fun_none]
  rfl

theorem readLine_long (ended : Bool) {text : String} (rest : Bytes) (whole : '\n' ∉ text.toList)
    (long : maxLine < (line text).length) :
    readLine ended (line text ++ rest) =
      .done (lineText ((line text).take maxLine)) ((line text).drop maxLine ++ rest) := by
  have full : ((line text).take maxLine).length = maxLine := by
    rw [List.length_take]
    omega
  unfold readLine
  rw [if_neg (line_ne_nil text rest), splitLine_line_long rest whole long]
  simp [isOpen, full]

theorem utf8ByteSize_headerStart {key : String} (item : Item) (carried : CarriesKey key) :
    (String.ofList (headerStart key item)).utf8ByteSize ≤ 8118 := by
  have short := carried.short
  have flags : (toString item.flags.toNat).utf8ByteSize ≤ 10 :=
    Text.utf8ByteSize_toString_le (by decide) (Nat.lt_trans item.flags.toNat_lt (by decide))
  have parts : String.ofList (headerStart key item) =
      "VALUE" ++ (" " ++ (key ++ (" " ++ (toString item.flags.toNat ++ " ")))) := by
    rw [← String.toList_inj]
    simp [headerStart]
  have name : "VALUE".utf8ByteSize = 5 := rfl
  have space : " ".utf8ByteSize = 1 := rfl
  rw [parts]
  simp only [String.utf8ByteSize_append, name, space]
  omega

theorem ascii_headerEnd (item : Item) (withRev : Bool) :
    ∀ c ∈ headerEnd item withRev, c.utf8Size = 1 := by
  have rev := Text.ascii_toString_int item.rev.val
  intro c listed
  cases withRev with
  | false =>
    simp only [headerEnd, Bool.false_eq_true, if_false, List.nil_append, List.mem_cons,
      List.not_mem_nil, or_false] at listed
    obtain rfl | rfl := listed <;> decide
  | true =>
    simp only [headerEnd, if_true, List.cons_append, List.mem_cons, List.mem_append,
      List.not_mem_nil, or_false] at listed
    obtain rfl | inside | rfl | rfl := listed
    · decide
    · exact rev c inside
    · decide
    · decide

theorem length_headerEnd_le (item : Item) (withRev : Bool) :
    (headerEnd item withRev).length ≤ 23 := by
  have rev := Text.utf8ByteSize_revision_le item.rev
  rw [Text.utf8ByteSize_of_ascii _ (Text.ascii_toString_int item.rev.val)] at rev
  cases withRev
  · simp [headerEnd]
  · simp only [headerEnd, if_true, List.cons_append, List.length_cons, List.length_append,
      List.length_nil]
    omega

/-- The announcement of a size of at least 64 bits begins with more than twenty digits of it, also
where the line is cut. -/
theorem lineText_cut {key : String} {item : Item} {withRev : Bool} (carried : CarriesKey key)
    (long : maxLine < (line (valueHeader key item withRev)).length) :
    ∃ more, (lineText ((line (valueHeader key item withRev)).take maxLine)).toList =
      headerStart key item ++ ((Nat.toDigits 10 item.value.length).take 21 ++ more) ∧
      21 ≤ (Nat.toDigits 10 item.value.length).length := by
  have start := utf8ByteSize_headerStart item carried
  have ending := length_headerEnd_le item withRev
  have ascii : ∀ c ∈ Nat.toDigits 10 item.value.length ++ headerEnd item withRev,
      c.utf8Size = 1 := by
    intro c listed
    obtain digit | last := List.mem_append.mp listed
    · exact Text.ascii_toDigits digit
    · exact ascii_headerEnd item withRev c last
  have parts : line (valueHeader key item withRev) =
      Text.Utf8.encode (String.ofList (headerStart key item)) ++ Text.Utf8.encode
        (String.ofList (Nat.toDigits 10 item.value.length ++ headerEnd item withRev)) := by
    rw [line_eq_encode, ← String.ofList_toList (s := valueHeader key item withRev ++ "\r\n"),
      toList_header, String.ofList_append, Text.Utf8.encode_append]
  have size := congrArg List.length parts
  rw [List.length_append, Text.Utf8.length_encode, Text.Utf8.length_encode,
    Text.utf8ByteSize_of_ascii (String.ofList (_ ++ _)) (by simpa using ascii),
    String.toList_ofList, List.length_append] at size
  have digits : 21 ≤ (Nat.toDigits 10 item.value.length).length := by
    simp only [maxLine] at long
    omega
  have room : 21 ≤ maxLine - (String.ofList (headerStart key item)).utf8ByteSize := by
    simp only [maxLine]
    omega
  have taken : ((Nat.toDigits 10 item.value.length).take 21).length = 21 := by
    rw [List.length_take]
    omega
  have cut : (line (valueHeader key item withRev)).take maxLine = Text.Utf8.encode
      (String.ofList (headerStart key item ++ (Nat.toDigits 10 item.value.length).take 21) ++
        String.ofList (((Nat.toDigits 10 item.value.length).drop 21 ++
          headerEnd item withRev).take
            (maxLine - (String.ofList (headerStart key item)).utf8ByteSize - 21))) := by
    rw [parts, List.take_append, Text.Utf8.length_encode, List.take_of_length_le
      (by rw [Text.Utf8.length_encode, maxLine]; omega), take_encode_ascii _ ascii,
      ← List.take_append_drop 21 (Nat.toDigits 10 item.value.length), List.append_assoc,
      @List.take_append _ (List.take 21 _), taken, List.take_of_length_le (by omega)]
    simp only [String.ofList_append, Text.Utf8.encode_append, List.append_assoc,
      List.take_append_drop]
  have plain : EndsPlain
      (String.ofList (headerStart key item ++ (Nat.toDigits 10 item.value.length).take 21)) := by
    intro c last
    have filled : (Nat.toDigits 10 item.value.length).take 21 ≠ [] :=
      List.ne_nil_of_length_pos (by omega)
    rw [String.toList_ofList, List.getLast?_append, List.getLast?_eq_some_getLast filled,
      Option.some_or, ← List.getLast?_eq_some_getLast filled] at last
    have digit := Nat.isDigit_of_mem_toDigits (b := 10) (by decide) (by decide)
      (List.mem_of_mem_take (List.mem_of_getLast? last))
    exact ⟨by rintro rfl; exact absurd digit (by decide),
      by rintro rfl; exact absurd digit (by decide)⟩
  obtain ⟨more, text⟩ := lineText_begins (((Nat.toDigits 10 item.value.length).drop 21 ++
    headerEnd item withRev).take
      (maxLine - (String.ofList (headerStart key item)).utf8ByteSize - 21)) plain
  refine ⟨more, ?_, digits⟩
  rw [cut, text]
  simp

/-- An announcement that does not fit on a line is refused as well. -/
theorem readValuesAfter_long {bodyMax : Nat} {ended : Bool} {found : List (String × Item)}
    {key : String} {item : Item} {withRev : Bool} (rest : Bytes) (carried : CarriesKey key)
    (long : maxLine < (line (valueHeader key item withRev)).length) :
    ∃ why left, readValuesAfter bodyMax ended found (value key item withRev ++ rest) =
      .failed why left := by
  obtain ⟨more, begins, digits⟩ := lineText_cut carried long
  have word := isWord_valueWords item withRev carried.word
  have whole : '\n' ∉ (valueHeader key item withRev).toList := by
    rw [valueHeader_eq]
    exact lf_notMem_words word
  have parts : value key item withRev ++ rest =
      line (valueHeader key item withRev) ++ (item.value ++ (Bytes.crlf ++ rest)) := by
    simp [value]
  have read := readLine_long ended (item.value ++ (Bytes.crlf ++ rest)) whole long
  obtain ⟨c, cs, first, digit⟩ := Text.head_toDigits item.value.length
  have positive : 0 < item.value.length := by
    rcases Nat.eq_zero_or_pos item.value.length with zero | positive
    · rw [zero] at digits
      exact absurd digits (by decide)
    · exact positive
  have leading : c ≠ '0' := by
    have head := Text.head_toDigits_ne_zero positive
    rw [first] at head
    simpa using head
  have each : ∀ d ∈ c :: cs, d.isDigit = true := fun d listed =>
    Nat.isDigit_of_mem_toDigits (by decide) (by decide) (first ▸ listed)
  rw [first, List.length_cons] at digits
  rw [first, List.take_succ_cons] at begins
  obtain ⟨why, bad⟩ := valueLine_long bodyMax carried.word begins
    (fun d listed => each d (List.mem_of_mem_take (i := 21) (by simpa using listed))) leading
    (by rw [List.length_take]; omega)
  have not_end : lineText ((line (valueHeader key item withRev)).take maxLine) ≠ "END" := by
    intro same
    rw [same] at begins
    simp [headerStart] at begins
  rw [parts]
  exact ⟨why, _, readValuesAfter_error read not_end bad⟩

theorem readValuesAfter_refused {bodyMax : Nat} {ended : Bool} {found : List (String × Item)}
    {key : String} {item : Item} {withRev : Bool} (rest : Bytes) (carried : CarriesKey key)
    (refused : ¬Accepts bodyMax item.value.length) :
    ∃ why left, readValuesAfter bodyMax ended found (value key item withRev ++ rest) =
      .failed why left := by
  by_cases fits : (line (valueHeader key item withRev)).length ≤ maxLine
  · have read := readLine_header ended item rest carried.word fits
    have announced := valueLine_header bodyMax item withRev carried.word
    by_cases small : item.value.length < Text.bound64
    · by_cases allowed : item.value.length ≤ bodyMax
      · exact readValuesAfter_wrapped rest carried small allowed
          (Nat.not_lt.mp fun free => refused ⟨allowed, free⟩)
      · rw [if_neg (Nat.not_le.mpr small), if_pos (Nat.not_le.mp allowed)] at announced
        exact ⟨_, _, readValuesAfter_error read (header_ne_end key item withRev) announced⟩
    · rw [if_pos (Nat.not_lt.mp small)] at announced
      exact ⟨_, _, readValuesAfter_error read (header_ne_end key item withRev) announced⟩
  · exact readValuesAfter_long rest carried (Nat.not_le.mp fits)

theorem readValuesAfter_end {bodyMax : Nat} {ended : Bool} (found : List (String × Item))
    (rest : Bytes) :
    readValuesAfter bodyMax ended found (line "END" ++ rest) = .done found.reverse rest := by
  have read : readLine ended (line "END" ++ rest) = .done "END" rest := by
    apply readLine_line _ rest (by decide) (by decide)
    intro c last
    obtain rfl : 'D' = c := by simpa using last
    exact ⟨by decide, by decide⟩
  rw [readValuesAfter_line read, if_pos rfl]

theorem values_cons (key : String) (item : Item) (others : List (String × Item)) (withRev : Bool)
    (rest : Bytes) :
    values ((key, item) :: others) withRev ++ rest =
      value key item withRev ++ (values others withRev ++ rest) := by
  simp [values]

theorem readValuesAfter_values {bodyMax : Nat} {ended withRev : Bool}
    (done found : List (String × Item)) (rest : Bytes)
    (word : ∀ entry ∈ found, Text.IsWord entry.1)
    (fits : ∀ entry ∈ found, (line (valueHeader entry.1 entry.2 withRev)).length ≤ maxLine)
    (accepted : ∀ entry ∈ found, Accepts bodyMax entry.2.value.length) :
    readValuesAfter bodyMax ended done (values found withRev ++ rest) =
      .done (done.reverse ++ found.map fun entry => (entry.1, shown withRev entry.2)) rest := by
  induction found generalizing done with
  | nil =>
    simp only [values, List.flatMap_nil, List.nil_append, readValuesAfter_end, List.map_nil,
      List.append_nil]
  | cons entry others ih =>
    rw [List.forall_mem_cons] at word fits accepted
    have later := ih ((entry.1, shown withRev entry.2) :: done) word.2 fits.2 accepted.2
    rw [values_cons, readValuesAfter_value _ word.1 fits.1 accepted.1, later]
    simp

/-- An answer of values that are all accepted is read as it was meant. -/
theorem readValues_values {bodyMax : Nat} (ended withRev : Bool) (found : List (String × Item))
    (rest : Bytes) (carried : ∀ entry ∈ found, CarriesKey entry.1)
    (accepted : ∀ entry ∈ found, Accepts bodyMax entry.2.value.length) :
    readValues bodyMax ended (values found withRev ++ rest) =
      .done (found.map fun entry => (entry.1, shown withRev entry.2)) rest :=
  readValuesAfter_values [] found rest (fun entry listed => (carried entry listed).word)
    (fun entry listed => length_header_le (carried entry listed) (accepted entry listed).small)
    accepted

/-- One value that is not accepted makes the whole answer fail. -/
theorem readValuesAfter_some_refused {bodyMax : Nat} (ended withRev : Bool)
    (done found : List (String × Item)) (rest : Bytes)
    (carried : ∀ entry ∈ found, CarriesKey entry.1)
    (refused : ∃ entry ∈ found, ¬Accepts bodyMax entry.2.value.length) :
    ∃ why left, readValuesAfter bodyMax ended done (values found withRev ++ rest) =
      .failed why left := by
  induction found generalizing done with
  | nil =>
    obtain ⟨entry, listed, -⟩ := refused
    exact absurd listed List.not_mem_nil
  | cons entry others ih =>
    have here := carried _ List.mem_cons_self
    rw [values_cons]
    by_cases accepted : Accepts bodyMax entry.2.value.length
    · rw [readValuesAfter_value _ here.word (length_header_le here accepted.small) accepted]
      apply ih _ fun e listed => carried e (List.mem_cons_of_mem _ listed)
      obtain ⟨bad, listed, large⟩ := refused
      obtain rfl | listed := List.mem_cons.mp listed
      · exact absurd accepted large
      · exact ⟨bad, listed, large⟩
    · exact readValuesAfter_refused _ here accepted

end QuorumKv.Wire
