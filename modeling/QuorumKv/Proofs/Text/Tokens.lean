import QuorumKv.Proofs.Text.Lossy

/-! A line of bytes and its tokens, which stand between blanks as UTF-8 writes them. A character is
read back whatever stands around it, so a line may be decoded before it is cut: its words are its
tokens, each decoded by itself. A token that is not UTF-8 shows it in its own word and nowhere
else. -/
namespace QuorumKv.Text

namespace Utf8

theorem follow_suffix (n : Nat) (low high : UInt8) (point : Nat) (bytes : Bytes) :
    (follow n low high point bytes).2 <:+ bytes := by
  induction n generalizing low high point bytes with
  | zero => exact List.suffix_refl _
  | succ n ih =>
    cases bytes with
    | nil => exact List.suffix_refl _
    | cons b rest =>
      rw [follow]
      split
      · exact (ih ..).trans (List.suffix_cons b rest)
      · exact List.suffix_refl _

theorem piece_suffix (b : UInt8) (rest : Bytes) : (piece b rest).2 <:+ rest := by
  unfold piece
  split
  · exact List.suffix_refl _
  · rename_i o _
    have left := follow_suffix o.follow o.low o.high o.payload rest
    split <;> simp_all

/-- No character goes on with the first byte of another. -/
theorem encodeChar_start (c : Char) :
    ∃ b rest, String.utf8EncodeChar c = b :: rest ∧ IsStart b := by
  have lead {n : Nat} (above : 0xBF < n) (bound : n < 256) : IsStart (UInt8.ofNat n) :=
    .inr (by simpa [UInt8.lt_iff_toNat_lt, Nat.mod_eq_of_lt bound] using above)
  unfold String.utf8EncodeChar
  dsimp only
  split
  · rename_i ascii
    refine ⟨_, _, rfl, .inl ?_⟩
    rw [UInt8.lt_iff_toNat_lt, UInt8.toNat_ofNat', Nat.mod_eq_of_lt (by omega)]
    exact Nat.lt_succ_of_le ascii
  · split
    · exact ⟨_, _, rfl, lead (by omega) (by omega)⟩
    · split
      · exact ⟨_, _, rfl, lead (by omega) (by omega)⟩
      · exact ⟨_, _, rfl, lead (by omega) (by omega)⟩

theorem encodeChar_ne_nil (c : Char) : String.utf8EncodeChar c ≠ [] := by
  obtain ⟨b, rest, bytes, -⟩ := encodeChar_start c
  rw [bytes]
  exact List.cons_ne_nil b rest

/-- A written character is read as one piece, whatever stands around it. -/
theorem pieces_append_encodeChar (front : Bytes) (c : Char) (rest : Bytes) :
    pieces (front ++ (String.utf8EncodeChar c ++ rest)) =
      pieces front ++ .char c :: pieces rest := by
  obtain ⟨b, more, bytes, start⟩ := encodeChar_start c
  rw [← pieces_encodeChar c rest, bytes, List.cons_append, pieces_append front _ start]

/-- The characters that are read are those that stand in the bytes. -/
theorem mem_pieces_iff {c : Char} {bytes : Bytes} :
    .char c ∈ pieces bytes ↔ String.utf8EncodeChar c <:+: bytes := by
  constructor
  · intro read
    fun_induction pieces bytes with
    | case1 => cases read
    | case2 b rest ih =>
      obtain first | later := List.mem_cons.mp read
      · have whole : piece b rest = (.char c, (piece b rest).2) := by rw [first]
        rw [encodeChar_of_piece whole]
        exact (List.prefix_append ..).isInfix
      · have behind := (piece_suffix b rest).trans (List.suffix_cons b rest)
        exact (ih later).trans behind.isInfix
  · rintro ⟨front, rest, rfl⟩
    rw [List.append_assoc, pieces_append_encodeChar]
    simp

/-- A text without U+FFFD is written as the very bytes that it was read from. -/
theorem encode_decodeLossy {bytes : Bytes} (whole : replacement ∉ (decodeLossy bytes).toList) :
    encode (decodeLossy bytes) = bytes := by
  rw [decodeLossy, String.toList_ofList] at whole
  rw [decodeLossy, encode, String.toList_ofList]
  fun_induction pieces bytes with
  | case1 => rfl
  | case2 b rest ih =>
    rw [List.map_cons, List.mem_cons, not_or] at whole
    rw [List.map_cons, List.flatMap_cons, ih whole.2]
    cases read : piece b rest with
    | mk first left =>
      cases first with
      | char c => exact (encodeChar_of_piece read).symm
      | broken => exact absurd (by rw [read]; rfl) whole.1

end Utf8

/-- Bytes in which no blank stands. -/
structure IsToken (token : Bytes) : Prop where
  filled : token ≠ []
  whole : ∀ c, isBlank c = true → ¬String.utf8EncodeChar c <:+: token

/-- The end of a line, or a blank and what follows it. -/
inductive EndsToken : Bytes → Prop
  | line : EndsToken []
  | blank {c : Char} (rest : Bytes) (blank : isBlank c = true) :
      EndsToken (String.utf8EncodeChar c ++ rest)

/-- A line and its tokens in their order. Behind a token stands a blank, so no two of them touch. -/
inductive Tokens : Bytes → List Bytes → Prop
  | nil : Tokens [] []
  | blank {c : Char} {rest : Bytes} {tokens : List Bytes} (blank : isBlank c = true)
      (later : Tokens rest tokens) : Tokens (String.utf8EncodeChar c ++ rest) tokens
  | token {token rest : Bytes} {tokens : List Bytes} (solid : IsToken token)
      (stops : EndsToken rest) (later : Tokens rest tokens) :
      Tokens (token ++ rest) (token :: tokens)

theorem EndsToken.pieces_append {rest : Bytes} (stops : EndsToken rest) (front : Bytes) :
    Utf8.pieces (front ++ rest) = Utf8.pieces front ++ Utf8.pieces rest := by
  cases stops with
  | line => simp [Utf8.pieces_nil]
  | blank more blank => rw [Utf8.pieces_append_encodeChar, Utf8.pieces_encodeChar]

theorem EndsToken.blank_of_head {rest : Bytes} {c : Char} (stops : EndsToken rest)
    (first : ((Utf8.pieces rest).map Utf8.Piece.shown).head? = some c) : isBlank c = true := by
  cases stops with
  | line => simp [Utf8.pieces_nil] at first
  | blank more blank =>
    rw [Utf8.pieces_encodeChar, List.map_cons, List.head?_cons] at first
    obtain rfl := Option.some.inj first
    exact blank

theorem IsToken.pieces_ne_nil {token : Bytes} (solid : IsToken token) :
    Utf8.pieces token ≠ [] := by
  cases token with
  | nil => exact absurd rfl solid.filled
  | cons b rest =>
    rw [Utf8.pieces]
    exact List.cons_ne_nil _ _

/-- Not even a broken piece of a token is shown as a blank. -/
theorem IsToken.not_blank {token : Bytes} (solid : IsToken token) :
    ∀ c ∈ (Utf8.pieces token).map Utf8.Piece.shown, isBlank c = false := by
  intro c listed
  obtain ⟨p, read, rfl⟩ := List.mem_map.mp listed
  cases p with
  | char c =>
    exact eq_false_of_ne_true fun blank => solid.whole c blank (Utf8.mem_pieces_iff.mp read)
  | broken => decide

theorem Tokens.words_eq {line : Bytes} {tokens : List Bytes} (cut : Tokens line tokens) :
    words ((Utf8.pieces line).map Utf8.Piece.shown) =
      tokens.map fun token => (Utf8.pieces token).map Utf8.Piece.shown := by
  induction cut with
  | nil => rw [Utf8.pieces_nil]; exact words_blank [] nofun
  | blank blank later ih =>
    rw [Utf8.pieces_encodeChar, List.map_cons, Utf8.Piece.shown, words, if_pos blank, ih]
  | @token token rest tokens solid stops later ih =>
    have filled : (Utf8.pieces token).map Utf8.Piece.shown ≠ [] := by
      simpa using solid.pieces_ne_nil
    rw [stops.pieces_append, List.map_append, List.map_cons, ← ih,
      words_cons filled solid.not_blank fun c => stops.blank_of_head]

/-- The words of a line are its tokens, each decoded by itself. -/
theorem Tokens.splitWords_eq {line : Bytes} {tokens : List Bytes} (cut : Tokens line tokens) :
    splitWords (Utf8.decodeLossy line) = tokens.map Utf8.decodeLossy := by
  rw [splitWords, Utf8.decodeLossy, String.toList_ofList, cut.words_eq, List.map_map]
  rfl

theorem Tokens.append {front rest : Bytes} {tokens : List Bytes} (blanks : Tokens front [])
    (later : Tokens rest tokens) : Tokens (front ++ rest) tokens := by
  generalize none : [] = no_tokens at blanks
  induction blanks with
  | nil => exact later
  | blank blank _ ih =>
    rw [List.append_assoc]
    exact .blank blank (ih none)
  | token => cases none

/-- The bytes before the first blank. -/
theorem exists_first_blank (bytes : Bytes) :
    ∃ front rest, bytes = front ++ rest ∧ EndsToken rest ∧
      ∀ c, isBlank c = true → ¬String.utf8EncodeChar c <:+: front := by
  induction bytes with
  | nil =>
    refine ⟨[], [], rfl, .line, fun c _ inside => ?_⟩
    exact Utf8.encodeChar_ne_nil c (List.infix_nil.mp inside)
  | cons b bytes ih =>
    by_cases here : ∃ c, isBlank c = true ∧ String.utf8EncodeChar c <+: b :: bytes
    · obtain ⟨c, blank, more, parts⟩ := here
      refine ⟨[], b :: bytes, rfl, parts ▸ .blank more blank, fun d _ inside => ?_⟩
      exact Utf8.encodeChar_ne_nil d (List.infix_nil.mp inside)
    · obtain ⟨front, rest, rfl, stops, whole⟩ := ih
      refine ⟨b :: front, rest, rfl, stops, fun c blank inside => ?_⟩
      obtain first | later := List.infix_cons_iff.mp inside
      · exact here ⟨c, blank, first.trans (List.prefix_append (b :: front) rest)⟩
      · exact whole c blank later

theorem exists_tokens (line : Bytes) : ∃ tokens, Tokens line tokens := by
  -- on the length, because a blank and a token may each take several bytes off the front
  induction size : line.length using Nat.strongRecOn generalizing line with
  | ind n ih =>
    subst size
    obtain ⟨front, rest, rfl, stops, whole⟩ := exists_first_blank line
    cases front with
    | nil =>
      cases stops with
      | line => exact ⟨[], .nil⟩
      | @blank c more blank =>
        have shorter : more.length < ([] ++ (String.utf8EncodeChar c ++ more)).length := by
          have some_byte := List.length_pos_iff.mpr (Utf8.encodeChar_ne_nil c)
          simp only [List.nil_append, List.length_append]
          omega
        obtain ⟨tokens, later⟩ := ih _ shorter more rfl
        exact ⟨tokens, .blank blank later⟩
    | cons b front =>
      have shorter : rest.length < (b :: front ++ rest).length := by
        simp only [List.length_append, List.length_cons]
        omega
      obtain ⟨tokens, later⟩ := ih _ shorter rest rfl
      exact ⟨_, .token ⟨List.cons_ne_nil b front, whole⟩ stops later⟩

/-- No blank begins with the beginning of a token. -/
theorem IsToken.append_ne {token rest more : Bytes} {c : Char} (solid : IsToken token)
    (stops : EndsToken rest) (blank : isBlank c = true) :
    token ++ rest ≠ String.utf8EncodeChar c ++ more := by
  intro same
  have read := congrArg Utf8.pieces same
  rw [stops.pieces_append, Utf8.pieces_encodeChar] at read
  have first : .char c ∈ Utf8.pieces token := by
    cases known : Utf8.pieces token with
    | nil => exact absurd known solid.pieces_ne_nil
    | cons p ps =>
      rw [known, List.cons_append] at read
      rw [(List.cons.inj read).1]
      exact List.mem_cons_self
  exact solid.whole c blank (Utf8.mem_pieces_iff.mp first)

/-- Of two tokens at the front of a line none goes on behind the other. -/
theorem IsToken.gap_eq_nil {token other rest more gap : Bytes} (solid : IsToken other)
    (stops : EndsToken rest) (stops' : EndsToken more) (longer : other = token ++ gap)
    (left : rest = gap ++ more) : gap = [] := by
  by_contra filled
  have inside : gap <:+: other := longer ▸ (List.suffix_append token gap).isInfix
  have solid_gap : IsToken gap :=
    ⟨filled, fun c blank held => solid.whole c blank (held.trans inside)⟩
  cases stops with
  | line => exact filled (List.append_eq_nil_iff.mp left.symm).1
  | blank _ blank => exact solid_gap.append_ne stops' blank left.symm

theorem Tokens.unique {line : Bytes} {tokens others : List Bytes} (cut : Tokens line tokens)
    (again : Tokens line others) : others = tokens := by
  induction cut generalizing others with
  | nil =>
    generalize none : ([] : Bytes) = line at again
    cases again with
    | nil => rfl
    | blank => exact absurd (List.append_eq_nil_iff.mp none.symm).1 (Utf8.encodeChar_ne_nil _)
    | token solid => exact absurd (List.append_eq_nil_iff.mp none.symm).1 solid.filled
  | @blank c rest tokens blank later ih =>
    generalize same : String.utf8EncodeChar c ++ rest = line at again
    cases again with
    | nil => exact absurd (List.append_eq_nil_iff.mp same).1 (Utf8.encodeChar_ne_nil _)
    | @blank d _ _ _ later' =>
      have read := congrArg Utf8.pieces same
      rw [Utf8.pieces_encodeChar, Utf8.pieces_encodeChar] at read
      obtain rfl := Utf8.Piece.char.inj (List.cons.inj read).1
      exact ih (List.append_cancel_left same ▸ later')
    | token solid stops => exact absurd same.symm (solid.append_ne stops blank)
  | @token token rest tokens solid stops later ih =>
    generalize same : token ++ rest = line at again
    cases again with
    | nil => exact absurd (List.append_eq_nil_iff.mp same).1 solid.filled
    | blank blank => exact absurd same (solid.append_ne stops blank)
    | @token other more _ solid' stops' later' =>
      -- the longer token would hold a gap behind the shorter one, where a blank has to stand
      obtain ⟨gap, longer, left⟩ | ⟨gap, longer, left⟩ := List.append_eq_append_iff.mp same
      · obtain rfl := solid'.gap_eq_nil stops stops' longer left
        simp only [List.append_nil, List.nil_append] at longer left
        subst longer left
        rw [ih later']
      · obtain rfl := solid.gap_eq_nil stops' stops longer left
        simp only [List.append_nil, List.nil_append] at longer left
        subst longer left
        rw [ih later']

theorem tokens_iff {line : Bytes} {tokens : List Bytes} (cut : Tokens line tokens)
    (others : List Bytes) : Tokens line others ↔ others = tokens :=
  ⟨cut.unique, fun same => same ▸ cut⟩

end QuorumKv.Text
