import Mathlib.Data.List.TakeWhile
import QuorumKv.Text.Blank

/-! Words that were joined with single spaces are found again. -/
namespace QuorumKv.Text

/-- A text that stays in one piece wherever text is cut at blanks. -/
structure IsWord (text : String) : Prop where
  filled : text ≠ ""
  whole : ∀ c ∈ text.toList, isBlank c = false

theorem words_blank (blanks : List Char) (blank : ∀ c ∈ blanks, isBlank c = true) :
    words blanks = [] := by
  induction blanks with
  | nil => rw [words]
  | cons c cs ih =>
    rw [words, if_pos (blank c List.mem_cons_self)]
    exact ih fun d later => blank d (List.mem_cons_of_mem c later)

/-- A word and what follows it, which is nothing or begins with a blank. -/
theorem words_cons {word rest : List Char} (filled : word ≠ [])
    (whole : ∀ c ∈ word, isBlank c = false) (cut : ∀ c, rest.head? = some c → isBlank c = true) :
    words (word ++ rest) = word :: words rest := by
  cases word with
  | nil => exact absurd rfl filled
  | cons c cs =>
    have first : isBlank c = false := whole c List.mem_cons_self
    have others : ∀ d ∈ cs, (!isBlank d) = true := by
      intro d later
      simp [whole d (List.mem_cons_of_mem c later)]
    have taken : rest.takeWhile (!isBlank ·) = [] ∧ rest.dropWhile (!isBlank ·) = rest := by
      cases rest with
      | nil => exact ⟨rfl, rfl⟩
      | cons d rest => simp [cut d rfl]
    rw [List.cons_append, words, if_neg (by simp [first]), List.takeWhile_append_of_pos others,
      List.dropWhile_append_of_pos others, taken.1, taken.2, List.append_nil]

theorem words_intercalate (ws : List (List Char)) (blanks : List Char)
    (filled : ∀ w ∈ ws, w ≠ []) (whole : ∀ w ∈ ws, ∀ c ∈ w, isBlank c = false)
    (blank : ∀ c ∈ blanks, isBlank c = true) :
    words ([' '].intercalate ws ++ blanks) = ws := by
  induction ws with
  | nil => exact words_blank blanks blank
  | cons w rest ih =>
    have here := filled w List.mem_cons_self
    have one := whole w List.mem_cons_self
    have more := ih (fun v later => filled v (List.mem_cons_of_mem w later))
      (fun v later => whole v (List.mem_cons_of_mem w later))
    cases rest with
    | nil =>
      rw [List.intercalate_singleton, words_cons here one ?_, words_blank blanks blank]
      intro c first
      exact blank c (List.mem_of_mem_head? first)
    | cons v rest =>
      rw [List.intercalate_cons_cons, List.append_assoc, List.append_assoc,
        words_cons here one (by simp [isBlank]), List.singleton_append, words,
        if_pos (by decide), more]

/-- Splitting at blanks undoes joining with spaces. Blanks at the end do not matter. -/
theorem splitWords_intercalate (ws : List String) (blanks : String)
    (word : ∀ w ∈ ws, IsWord w) (blank : ∀ c ∈ blanks.toList, isBlank c = true) :
    splitWords (" ".intercalate ws ++ blanks) = ws := by
  have parts : words ([' '].intercalate (ws.map String.toList) ++ blanks.toList) =
      ws.map String.toList := by
    apply words_intercalate
    · intro cs listed
      obtain ⟨w, known, rfl⟩ := List.mem_map.mp listed
      exact fun none => (word w known).filled (String.toList_inj.mp none)
    · intro cs listed
      obtain ⟨w, known, rfl⟩ := List.mem_map.mp listed
      exact (word w known).whole
    · exact blank
  rw [splitWords, String.toList_append, String.toList_intercalate, show " ".toList = [' '] from rfl,
    parts, List.map_map]
  simp [Function.comp_def]

/-- What stands between blanks, if there is none in it. -/
theorem trimList_eq {p : Char → Bool} {before core after : List Char} (filled : core ≠ [])
    (kept : ∀ c ∈ core, p c = false) (first : ∀ c ∈ before, p c = true)
    (last : ∀ c ∈ after, p c = true) : trimList p (before ++ core ++ after) = core := by
  have front (rest : List Char) : (core ++ rest).dropWhile p = core ++ rest := by
    cases core with
    | nil => exact absurd rfl filled
    | cons c cs => exact List.dropWhile_cons_of_neg (by simp [kept c List.mem_cons_self])
  have back : core.reverse.dropWhile p = core.reverse := by
    cases turned : core.reverse with
    | nil => exact absurd (List.reverse_eq_nil_iff.mp turned) filled
    | cons c cs =>
      have listed : c ∈ core := List.mem_reverse.mp (turned ▸ List.mem_cons_self)
      exact List.dropWhile_cons_of_neg (by simp [kept c listed])
  have blank : ∀ c ∈ after.reverse, p c = true :=
    fun c listed => last c (List.mem_reverse.mp listed)
  rw [trimList, List.append_assoc, List.dropWhile_append_of_pos first, front, List.reverse_append,
    List.dropWhile_append_of_pos blank, back, List.reverse_reverse]

/-- Nothing but blanks is trimmed. -/
theorem exists_trimList (p : Char → Bool) (cs : List Char) :
    ∃ before after, cs = before ++ trimList p cs ++ after ∧ (∀ c ∈ before, p c = true) ∧
      ∀ c ∈ after, p c = true := by
  refine ⟨cs.takeWhile p, ((cs.dropWhile p).reverse.takeWhile p).reverse, ?_, ?_, ?_⟩
  · rw [trimList, List.append_assoc, ← List.reverse_append, List.takeWhile_append_dropWhile,
      List.reverse_reverse, List.takeWhile_append_dropWhile]
  · exact fun c listed => List.mem_takeWhile_imp listed
  · exact fun c listed => List.mem_takeWhile_imp (List.mem_reverse.mp listed)

theorem dropWhile_append_cons {p : Char → Bool} {c : Char} (stop : p c = false)
    (front rest : List Char) :
    (front ++ c :: rest).dropWhile p = front.dropWhile p ++ c :: rest := by
  induction front with
  | nil => simp [stop]
  | cons d front ih =>
    simp only [List.cons_append, List.dropWhile_cons, ih]
    split <;> rfl

theorem takeWhile_append_cons {p : Char → Bool} {c : Char} (stop : p c = false)
    (front rest : List Char) :
    (front ++ c :: rest).takeWhile p = front.takeWhile p := by
  induction front with
  | nil => simp [stop]
  | cons d front ih =>
    simp only [List.cons_append, List.takeWhile_cons, ih]

theorem trimList_append_cons {p : Char → Bool} {c : Char} (front : List Char) {rest : List Char}
    (kept : ∀ d ∈ c :: rest, p d = false) :
    trimList p (front ++ c :: rest) = front.dropWhile p ++ c :: rest := by
  have stop := kept c List.mem_cons_self
  obtain ⟨init, last, ends⟩ : ∃ init last, c :: rest = init ++ [last] :=
    ⟨_, _, (List.dropLast_concat_getLast (List.cons_ne_nil c rest)).symm⟩
  have last_kept : p last = false := kept last (by simp [ends])
  rw [trimList, dropWhile_append_cons stop, ends, ← List.append_assoc, List.reverse_concat,
    List.dropWhile_cons_of_neg (by simp [last_kept]), ← List.reverse_concat, List.reverse_reverse]

theorem splitAtEach_ne_nil (sep : Char) (cs : List Char) : splitAtEach sep cs ≠ [] := by
  induction cs with
  | nil => simp [splitAtEach]
  | cons c cs ih =>
    cases parts : splitAtEach sep cs with
    | nil => exact absurd parts ih
    | cons part rest =>
      simp only [splitAtEach, parts]
      split <;> simp

theorem splitAtEach_of_notMem {sep : Char} {cs : List Char} (absent : sep ∉ cs) :
    splitAtEach sep cs = [cs] := by
  induction cs with
  | nil => rfl
  | cons c cs ih =>
    rw [List.mem_cons, not_or] at absent
    have other : (c == sep) = false := beq_eq_false_iff_ne.mpr (Ne.symm absent.1)
    simp [splitAtEach, ih absent.2, other]

theorem splitAtEach_append_cons (sep : Char) (front rest : List Char) :
    splitAtEach sep (front ++ sep :: rest) = splitAtEach sep front ++ splitAtEach sep rest := by
  induction front with
  | nil =>
    cases parts : splitAtEach sep rest with
    | nil => exact absurd parts (splitAtEach_ne_nil sep rest)
    | cons first others => simp [splitAtEach, parts]
  | cons c cs ih =>
    cases parts : splitAtEach sep cs with
    | nil => exact absurd parts (splitAtEach_ne_nil sep cs)
    | cons first others =>
      simp only [List.cons_append, splitAtEach, ih, parts]
      split <;> rfl

theorem splitAtEach_append {sep : Char} {part rest : List Char} (absent : sep ∉ part) :
    splitAtEach sep (part ++ sep :: rest) = part :: splitAtEach sep rest := by
  rw [splitAtEach_append_cons, splitAtEach_of_notMem absent, List.singleton_append]

/-- What holds no separator joins the part behind it. -/
theorem splitAtEach_within {sep : Char} {part rest first : List Char} {others : List (List Char)}
    (absent : sep ∉ part) (parts : splitAtEach sep rest = first :: others) :
    splitAtEach sep (part ++ rest) = (part ++ first) :: others := by
  induction part with
  | nil => exact parts
  | cons c cs ih =>
    rw [List.mem_cons, not_or] at absent
    have other : (c == sep) = false := beq_eq_false_iff_ne.mpr (Ne.symm absent.1)
    simp [splitAtEach, ih absent.2, other]

/-- What stands before the first separator stays together. -/
theorem splitAtEach_begins (sep : Char) {part : List Char} (rest : List Char)
    (absent : sep ∉ part) :
    ∃ more others, splitAtEach sep (part ++ rest) = (part ++ more) :: others := by
  cases parts : splitAtEach sep rest with
  | nil => exact absurd parts (splitAtEach_ne_nil sep rest)
  | cons first others => exact ⟨first, others, splitAtEach_within absent parts⟩

theorem notMem_of_mem_splitAtEach {sep : Char} {cs part : List Char}
    (listed : part ∈ splitAtEach sep cs) : sep ∉ part := by
  induction cs generalizing part with
  | nil => simp_all [splitAtEach]
  | cons c cs ih =>
    cases parts : splitAtEach sep cs with
    | nil => exact absurd parts (splitAtEach_ne_nil sep cs)
    | cons first others =>
      rw [parts] at ih
      simp only [splitAtEach, parts] at listed
      split at listed
      · obtain rfl | before := List.mem_cons.mp listed
        · exact List.not_mem_nil
        · exact ih before
      · rename_i other
        obtain rfl | before := List.mem_cons.mp listed
        · rw [List.mem_cons, not_or]
          exact ⟨fun same => other (beq_iff_eq.mpr same.symm), ih List.mem_cons_self⟩
        · exact ih (List.mem_cons_of_mem first before)

/-- Splitting commutes with a rewriting that turns separators, and nothing else, into separators. -/
theorem splitAtEach_flatMap {sep mark : Char} (write : Char → List Char)
    (kept : write sep = [mark]) (others : ∀ c, c ≠ sep → mark ∉ write c) (cs : List Char) :
    splitAtEach mark (cs.flatMap write) =
      (splitAtEach sep cs).map fun part => part.flatMap write := by
  induction cs with
  | nil => rfl
  | cons c cs ih =>
    cases parts : splitAtEach sep cs with
    | nil => exact absurd parts (splitAtEach_ne_nil sep cs)
    | cons first rest =>
      rw [parts, List.map_cons] at ih
      rw [List.flatMap_cons]
      by_cases same : c = sep
      · rw [same, kept, List.singleton_append, splitAtEach, ih, splitAtEach, parts]
        simp
      · rw [splitAtEach_within (others c same) ih, splitAtEach, parts]
        simp [same]

theorem mem_intercalate {sep c : Char} {parts : List (List Char)}
    (listed : c ∈ [sep].intercalate parts) : c = sep ∨ ∃ part ∈ parts, c ∈ part := by
  induction parts with
  | nil => simp at listed
  | cons part rest ih =>
    cases rest with
    | nil =>
      rw [List.intercalate_singleton] at listed
      exact .inr ⟨part, List.mem_cons_self, listed⟩
    | cons next rest =>
      rw [List.intercalate_cons_cons, List.mem_append, List.mem_append,
        List.mem_singleton] at listed
      obtain (here | separates) | later := listed
      · exact .inr ⟨part, List.mem_cons_self, here⟩
      · exact .inl separates
      · exact (ih later).imp_right fun ⟨held, known, inside⟩ =>
          ⟨held, List.mem_cons_of_mem part known, inside⟩

theorem splitAtEach_intercalate {sep : Char} (parts : List (List Char)) (filled : parts ≠ [])
    (absent : ∀ part ∈ parts, sep ∉ part) :
    splitAtEach sep ([sep].intercalate parts) = parts := by
  induction parts with
  | nil => exact absurd rfl filled
  | cons part rest ih =>
    have here := absent part List.mem_cons_self
    cases rest with
    | nil => rw [List.intercalate_singleton, splitAtEach_of_notMem here]
    | cons next rest =>
      rw [List.intercalate_cons_cons, List.append_assoc, List.singleton_append,
        splitAtEach_append here,
        ih (by simp) fun later listed => absent later (List.mem_cons_of_mem part listed)]

/-- Splitting at single spaces undoes joining with them. -/
theorem splitAtEach_words (ws : List String) (filled : ws ≠ []) (word : ∀ w ∈ ws, IsWord w) :
    (splitAtEach ' ' (" ".intercalate ws).toList).map String.ofList = ws := by
  have parts : splitAtEach ' ' ([' '].intercalate (ws.map String.toList)) =
      ws.map String.toList := by
    apply splitAtEach_intercalate
    · simpa using filled
    · intro part listed space
      obtain ⟨w, known, rfl⟩ := List.mem_map.mp listed
      exact absurd ((word w known).whole _ space) (by decide)
  rw [String.toList_intercalate, show " ".toList = [' '] from rfl, parts, List.map_map]
  simp [Function.comp_def]

end QuorumKv.Text
