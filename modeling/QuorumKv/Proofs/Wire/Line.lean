import QuorumKv.Proofs.Text.Blank
import QuorumKv.Proofs.Text.Utf8
import QuorumKv.Wire.Line

/-! A line that was written comes back as one line, with its text, when it is not too long. -/
namespace QuorumKv.Wire

theorem splitLine_lf {n : Nat} {bytes rest : Bytes} (whole : Bytes.lf ∉ bytes)
    (fits : bytes.length < n) :
    splitLine n (bytes ++ Bytes.lf :: rest) = (bytes ++ [Bytes.lf], rest) := by
  induction bytes generalizing n with
  | nil =>
    cases n with
    | zero => simp at fits
    | succ n => simp [splitLine]
  | cons b bytes ih =>
    rw [List.mem_cons, not_or] at whole
    rw [List.length_cons] at fits
    cases n with
    | zero => simp at fits
    | succ n =>
      have other : ¬b = Bytes.lf := fun e => whole.1 e.symm
      simp [splitLine, other, ih whole.2 (Nat.lt_of_succ_lt_succ fits)]

/-- Without a line feed in reach, a line ends where the limit is. -/
theorem splitLine_long {n : Nat} {bytes : Bytes} (whole : Bytes.lf ∉ bytes.take n) :
    splitLine n bytes = (bytes.take n, bytes.drop n) := by
  induction n generalizing bytes with
  | zero => simp [splitLine]
  | succ n ih =>
    cases bytes with
    | nil => simp [splitLine]
    | cons b bytes =>
      rw [List.take_succ_cons, List.mem_cons, not_or] at whole
      have other : ¬b = Bytes.lf := fun e => whole.1 e.symm
      simp [splitLine, other, ih whole.2]

/-- A line that has its line feed has it at its end only. -/
theorem exists_text_of_endsLine {n : Nat} {bytes : Bytes}
    (closed : endsLine (splitLine n bytes).1 = true) :
    ∃ text, (splitLine n bytes).1 = text ++ [Bytes.lf] ∧ Bytes.lf ∉ text := by
  induction n generalizing bytes with
  | zero => cases closed
  | succ n ih =>
    cases bytes with
    | nil => cases closed
    | cons b bytes =>
      by_cases feed : b = Bytes.lf
      · exact ⟨[], by simp [splitLine, feed], List.not_mem_nil⟩
      · simp only [splitLine, if_neg feed] at closed ⊢
        have later : endsLine (splitLine n bytes).1 = true := by
          unfold endsLine at closed ⊢
          cases line : (splitLine n bytes).1 with
          | nil => rw [line] at closed; exact absurd (by simpa using closed) feed
          | cons d ds => rwa [line, List.getLast?_cons_cons] at closed
        obtain ⟨text, parts, whole⟩ := ih later
        refine ⟨b :: text, by rw [parts]; rfl, ?_⟩
        rw [List.mem_cons, not_or]
        exact ⟨Ne.symm feed, whole⟩

theorem line_eq_encode (text : String) : line text = Text.Utf8.encode (text ++ "\r\n") := by
  rw [Text.Utf8.encode_append]
  rfl

theorem length_line (text : String) : (line text).length = text.utf8ByteSize + 2 := by
  rw [line, List.length_append, Text.Utf8.length_encode]
  rfl

theorem splitLine_line {n : Nat} {text : String} (rest : Bytes) (whole : '\n' ∉ text.toList)
    (fits : (line text).length ≤ n) : splitLine n (line text ++ rest) = (line text, rest) := by
  have parts : line text = (Text.Utf8.encode text ++ [Bytes.cr]) ++ [Bytes.lf] := by
    simp [line, Bytes.crlf]
  have clean : Bytes.lf ∉ Text.Utf8.encode text ++ [Bytes.cr] := by
    rw [List.mem_append, Text.Utf8.lf_mem_encode, not_or]
    exact ⟨whole, by decide⟩
  have short : (Text.Utf8.encode text ++ [Bytes.cr]).length < n := by
    rw [parts, List.length_append, List.length_singleton] at fits
    omega
  rw [parts, List.append_assoc _ [Bytes.lf] rest, List.singleton_append,
    splitLine_lf clean short]

theorem lf_notMem_take_line {n : Nat} {text : String} (whole : '\n' ∉ text.toList)
    (long : n < (line text).length) : Bytes.lf ∉ (line text).take n := by
  have short : n ≤ (Text.Utf8.encode text ++ [Bytes.cr]).length := by
    simp only [line, Bytes.crlf, List.length_append, List.length_cons] at long ⊢
    omega
  have parts : line text = (Text.Utf8.encode text ++ [Bytes.cr]) ++ [Bytes.lf] := by
    simp [line, Bytes.crlf]
  rw [parts, List.take_append_of_le_length short]
  intro listed
  obtain inside | ending := List.mem_append.mp (List.mem_of_mem_take listed)
  · exact whole ((Text.Utf8.lf_mem_encode text).mp inside)
  · exact absurd ending (by decide)

/-- A line that is too long is cut before its line feed. -/
theorem splitLine_line_long {n : Nat} {text : String} (rest : Bytes) (whole : '\n' ∉ text.toList)
    (long : n < (line text).length) :
    splitLine n (line text ++ rest) = ((line text).take n, (line text).drop n ++ rest) := by
  have start : (line text ++ rest).take n = (line text).take n :=
    List.take_append_of_le_length (Nat.le_of_lt long)
  have cut : Bytes.lf ∉ (line text ++ rest).take n := by
    rw [start]
    exact lf_notMem_take_line whole long
  rw [splitLine_long cut, start, List.drop_append_of_le_length (Nat.le_of_lt long)]

theorem endsLine_line (text : String) : endsLine (line text) = true := by
  simp [endsLine, line, Bytes.crlf]

theorem isOpen_line (text : String) (ended : Bool) : isOpen (line text) ended = false := by
  simp [isOpen, endsLine_line]

theorem line_ne_nil (text : String) (rest : Bytes) : line text ++ rest ≠ [] := by
  simp [line, Bytes.crlf]

theorem decodeLossy_line (text : String) : Text.Utf8.decodeLossy (line text) = text ++ "\r\n" := by
  rw [line_eq_encode, Text.Utf8.decodeLossy_encode]

/-- Whether a text does not end like a line already. -/
def EndsPlain (text : String) : Prop :=
  ∀ c, text.toList.getLast? = some c → c ≠ '\r' ∧ c ≠ '\n'

theorem dropWhile_of_endsPlain {text : String} (plain : EndsPlain text) :
    text.toList.reverse.dropWhile (fun c => c == '\r' || c == '\n') = text.toList.reverse := by
  cases reversed : text.toList.reverse with
  | nil => rfl
  | cons c cs =>
    have last : text.toList.getLast? = some c := by
      rw [← List.head?_reverse, reversed, List.head?_cons]
    simp [plain c last]

theorem lineText_line {text : String} (plain : EndsPlain text) : lineText (line text) = text := by
  have ends : (text ++ "\r\n").toList.reverse = '\n' :: '\r' :: text.toList.reverse := by
    simp
  rw [lineText, decodeLossy_line]
  simp only [ends, List.dropWhile_cons, BEq.rfl, Bool.or_true, Bool.true_or, if_true,
    dropWhile_of_endsPlain plain, List.reverse_reverse, String.ofList_toList]

theorem take_encode_ascii {cs : List Char} (n : Nat) (ascii : ∀ c ∈ cs, c.utf8Size = 1) :
    (Text.Utf8.encode (String.ofList cs)).take n =
      Text.Utf8.encode (String.ofList (cs.take n)) := by
  simp only [Text.Utf8.encode, String.toList_ofList]
  induction cs generalizing n with
  | nil => simp
  | cons c cs ih =>
    obtain ⟨b, one⟩ : ∃ b, String.utf8EncodeChar c = [b] := by
      rw [← List.length_eq_one_iff, String.length_utf8EncodeChar]
      exact ascii c List.mem_cons_self
    cases n with
    | zero => rfl
    | succ n =>
      have later := ih n fun d listed => ascii d (List.mem_cons_of_mem c listed)
      simp only [List.flatMap_cons, one, List.singleton_append, List.take_succ_cons, later]

/-- What is cut away at the end of a line does not reach into a part that ends plain. -/
theorem lineText_begins {text : String} (rest : List Char) (plain : EndsPlain text) :
    ∃ more, lineText (Text.Utf8.encode (text ++ String.ofList rest)) =
      text ++ String.ofList more := by
  have ends := dropWhile_of_endsPlain plain
  simp only [lineText, Text.Utf8.decodeLossy_encode, String.toList_append, String.toList_ofList,
    List.reverse_append, List.dropWhile_append, ends]
  split
  · exact ⟨[], by simp⟩
  · exact ⟨(rest.reverse.dropWhile fun c => c == '\r' || c == '\n').reverse, by simp⟩

theorem mem_intercalate {ws : List String} {c : Char}
    (listed : c ∈ (" ".intercalate ws).toList) : c = ' ' ∨ ∃ w ∈ ws, c ∈ w.toList := by
  rw [String.toList_intercalate] at listed
  refine (Text.mem_intercalate listed).imp_right fun ⟨part, known, inside⟩ => ?_
  obtain ⟨w, here, rfl⟩ := List.mem_map.mp known
  exact ⟨w, here, inside⟩

theorem lf_notMem_words {ws : List String} (word : ∀ w ∈ ws, Text.IsWord w) :
    '\n' ∉ (" ".intercalate ws).toList := by
  intro listed
  obtain space | ⟨w, known, inside⟩ := mem_intercalate listed
  · exact absurd space (by decide)
  · exact absurd ((word w known).whole _ inside) (by decide)

theorem endsPlain_words {ws : List String} (word : ∀ w ∈ ws, Text.IsWord w) :
    EndsPlain (" ".intercalate ws) := by
  intro c last
  have listed := List.mem_of_getLast? last
  obtain rfl | ⟨w, known, inside⟩ := mem_intercalate listed
  · exact ⟨by decide, by decide⟩
  · have solid := (word w known).whole c inside
    exact ⟨by rintro rfl; exact absurd solid (by decide),
      by rintro rfl; exact absurd solid (by decide)⟩

theorem utf8ByteSize_words_cons (w : String) (ws : List String) (more : ws ≠ []) :
    (" ".intercalate (w :: ws)).utf8ByteSize =
      w.utf8ByteSize + 1 + (" ".intercalate ws).utf8ByteSize := by
  rw [String.intercalate_cons_of_ne_nil more, String.utf8ByteSize_append,
    String.utf8ByteSize_append]
  rfl

end QuorumKv.Wire
