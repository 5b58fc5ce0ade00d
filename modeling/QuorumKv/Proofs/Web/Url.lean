import Mathlib.Data.List.TakeDrop
import QuorumKv.Web.Service
import QuorumKv.Web.Url
import QuorumKv.Proofs.Text.Blank
import QuorumKv.Proofs.Text.Percent

/-! A URL whose path is continued: what is written behind it is cut into segments, and these are
resolved from the directory that the URL named before. -/
namespace QuorumKv

theorem mem_of_mem_drop_append {α : Type} {n : Nat} {front rest : List α} {a : α}
    (listed : a ∈ (front ++ rest).drop n) : a ∈ front.drop n ∨ a ∈ rest := by
  rw [List.drop_append] at listed
  exact (List.mem_append.mp listed).imp_right List.mem_of_mem_drop

namespace Web

theorem cutAt_of_notMem {sep : Char} {cs : List Char} (absent : sep ∉ cs) :
    cutAt sep cs = (cs, none) := by
  induction cs with
  | nil => rfl
  | cons c cs ih =>
    rw [List.mem_cons, not_or] at absent
    rw [cutAt, if_neg (Ne.symm absent.1), ih absent.2]

theorem cutAt_append {sep : Char} {front : List Char} (held : sep ∈ front) :
    ∃ right, ∀ rest, (cutAt sep (front ++ rest)).2 = some (right ++ rest) := by
  induction front with
  | nil => exact absurd held List.not_mem_nil
  | cons c cs ih =>
    by_cases same : c = sep
    · exact ⟨cs, fun rest => by rw [List.cons_append, cutAt, if_pos same]⟩
    · obtain ⟨right, cut⟩ := ih ((List.mem_cons.mp held).resolve_left (Ne.symm same))
      exact ⟨right, fun rest => by rw [List.cons_append, cutAt, if_neg same, cut]⟩

namespace Url

/-- Nothing in it stops a path. -/
def IsPath (rest : List Char) : Prop :=
  ∀ c ∈ rest, isMargin c = false ∧ c ≠ '?' ∧ c ≠ '#'

instance (rest : List Char) : Decidable (IsPath rest) :=
  List.decidableBAll _ rest

theorem IsPath.append {front rest : List Char} (before : IsPath front) (after : IsPath rest) :
    IsPath (front ++ rest) :=
  fun c listed => (List.mem_append.mp listed).elim (before c) (after c)

/-- A URL to whose path more can be added: it has a host, and neither a query nor a fragment. -/
structure IsBase (url : String) : Prop where
  host : afterScheme (url ++ "/") ≠ []
  no_query : '?' ∉ afterScheme (url ++ "/")
  no_fragment : '#' ∉ afterScheme (url ++ "/")

/-- The directory that a URL names when a slash is put behind it. -/
def directory (url : String) : List String :=
  (segments (url ++ "/")).dropLast

theorem strip_append (url : String) {rest : String} (path : IsPath rest.toList) :
    strip (url ++ "/" ++ rest) =
      (url.toList.dropWhile isMargin).filter (fun c => !isLineBreak c) ++ '/' :: rest.toList := by
  have kept : ∀ c ∈ '/' :: rest.toList, isMargin c = false := by
    intro c listed
    obtain rfl | later := List.mem_cons.mp listed
    · decide
    · exact (path c later).1
  have whole : ('/' :: rest.toList).filter (fun c => !isLineBreak c) = '/' :: rest.toList := by
    refine List.filter_eq_self.mpr fun c listed => ?_
    have inside := kept c listed
    simp only [isLineBreak, Bool.not_eq_true', Bool.or_eq_false_iff, beq_eq_false_iff_ne]
    refine ⟨⟨?_, ?_⟩, ?_⟩ <;> (rintro rfl; exact absurd inside (by decide))
  have text : (url ++ "/" ++ rest).toList = url.toList ++ '/' :: rest.toList := by
    simp
  rw [strip, text, Text.trimList_append_cons _ kept, List.filter_append, whole]

/-- Since a base has a host, it has a scheme in front of it, which ends before anything is added. -/
theorem IsBase.scheme_append {url : String} (base : IsBase url) :
    ∃ right, ∀ rest : String, IsPath rest.toList → afterScheme (url ++ "/" ++ rest) =
      (right ++ '/' :: rest.toList).dropWhile fun c => c == '/' || c == '\\' := by
  generalize stripped : (url.toList.dropWhile isMargin).filter (fun c => !isLineBreak c) = s
  by_cases scheme : ':' ∈ s
  · obtain ⟨right, cut⟩ := cutAt_append scheme
    refine ⟨right, fun rest path => ?_⟩
    rw [afterScheme, strip_append url path, stripped, cut, Option.getD_some]
  · have absent : ':' ∉ s ++ '/' :: "".toList := by
      simpa using scheme
    have host := base.host
    rw [← String.append_empty (s := url ++ "/"), afterScheme, strip_append url (by decide),
      stripped, cutAt_of_notMem absent] at host
    exact absurd rfl host

/-- What follows the scheme is continued like the URL itself. -/
theorem IsBase.afterScheme_append {url : String} (base : IsBase url) :
    ∃ front, (∀ c ∈ front, c ≠ '?' ∧ c ≠ '#') ∧ ∀ rest : String, IsPath rest.toList →
      afterScheme (url ++ "/" ++ rest) = front ++ '/' :: rest.toList := by
  obtain ⟨right, reads⟩ := base.scheme_append
  have alone : afterScheme (url ++ "/") =
      (right ++ ['/']).dropWhile fun c => c == '/' || c == '\\' := by
    have read := reads "" (by decide)
    rwa [String.append_empty] at read
  obtain ⟨host, no_query, no_fragment⟩ := base
  by_cases slashes : (right.dropWhile fun c => c == '/' || c == '\\') = []
  · rw [alone, List.dropWhile_append, slashes] at host
    exact absurd rfl host
  · rw [alone, List.dropWhile_append, if_neg (by simpa using slashes)] at no_query no_fragment
    refine ⟨right.dropWhile fun c => c == '/' || c == '\\', fun c listed => ⟨?_, ?_⟩,
      fun rest path => ?_⟩
    · rintro rfl
      exact no_query (List.mem_append_left _ listed)
    · rintro rfl
      exact no_fragment (List.mem_append_left _ listed)
    · rw [reads rest path, List.dropWhile_append, if_neg (by simpa using slashes)]

theorem slash_of_endsAuthority {c : Char} (ends : endsAuthority c = true)
    (plain : c ≠ '?' ∧ c ≠ '#') : c = '/' ∨ c = '\\' := by
  have listed : c ∈ "/\\?#".toList := List.contains_iff_mem.mp ends
  simpa [plain] using listed

/-- A URL that is continued keeps its authority, and all that is added belongs to its path. -/
theorem IsBase.path_append {url : String} (base : IsBase url) :
    ∃ front, (∀ c, front.head? = some c → c = '/' ∨ c = '\\') ∧
      ∀ rest : String, IsPath rest.toList →
        authority (url ++ "/" ++ rest) = authority (url ++ "/") ∧
        pathAndFragment (url ++ "/" ++ rest) = (front ++ '/' :: rest.toList, none) ∧
        pathAndQuery (url ++ "/" ++ rest) = (front ++ '/' :: rest.toList, none) := by
  obtain ⟨whole, plain, reads⟩ := base.afterScheme_append
  have slash : (!endsAuthority '/') = false := by decide
  have alone : afterScheme (url ++ "/") = whole ++ ['/'] := by
    have read := reads "" (by decide)
    rwa [String.append_empty] at read
  generalize behind : (whole.dropWhile fun c => !endsAuthority c) = front
  have inside : ∀ c ∈ front, c ≠ '?' ∧ c ≠ '#' := by
    intro c listed
    rw [← behind] at listed
    exact plain c ((List.dropWhile_suffix _).subset listed)
  refine ⟨front, fun c first => ?_, fun rest path => ?_⟩
  · have ends := List.head?_dropWhile_not (fun c => !endsAuthority c) whole
    rw [behind, first] at ends
    exact slash_of_endsAuthority (by simpa using ends) (inside c (List.mem_of_mem_head? first))
  · have added : ∀ c ∈ front ++ '/' :: rest.toList, c ≠ '?' ∧ c ≠ '#' := by
      intro c listed
      obtain before | after := List.mem_append.mp listed
      · exact inside c before
      · obtain rfl | later := List.mem_cons.mp after
        · decide
        · exact (path c later).2
    have fragment : pathAndFragment (url ++ "/" ++ rest) = (front ++ '/' :: rest.toList, none) := by
      rw [pathAndFragment, reads rest path, Text.dropWhile_append_cons slash, behind]
      exact cutAt_of_notMem fun listed => (added _ listed).2 rfl
    refine ⟨?_, fragment, ?_⟩
    · rw [authority, authority, reads rest path, alone, Text.takeWhile_append_cons slash,
        Text.takeWhile_append_cons slash]
    · rw [pathAndQuery, fragment]
      exact cutAt_of_notMem fun listed => (added _ listed).1 rfl

/-- The slash that a character of a path counts as, if any. -/
def asSlash (c : Char) : Char := if c == '\\' then '/' else c

/-- The segments of what is added to a path. -/
def partsOf (rest : String) : List (List Char) :=
  Text.splitAtEach '/' (rest.toList.map asSlash)

theorem segmentsOf_of_empty {path : List Char} {parts : List (List Char)}
    (cut : Text.splitAtEach '/' (path.map asSlash) = [] :: parts) : segmentsOf path = parts := by
  have slashed : (path.map fun c => if c == '\\' then '/' else c) = path.map asSlash := rfl
  rw [segmentsOf, slashed, cut]

theorem segmentsOf_append {front : List Char}
    (begins : ∀ c, front.head? = some c → c = '/' ∨ c = '\\') :
    ∃ before, ∀ rest : String,
      segmentsOf (front ++ '/' :: rest.toList) = before ++ partsOf rest := by
  -- The first part is empty, whether the slash that is added begins the path or another one does.
  obtain ⟨before, first⟩ : ∃ before, Text.splitAtEach '/' (front.map asSlash) = [] :: before := by
    cases front with
    | nil => exact ⟨[], rfl⟩
    | cons c front =>
      have slash : asSlash c = '/' := by
        obtain rfl | rfl := begins c rfl <;> decide
      refine ⟨Text.splitAtEach '/' (front.map asSlash), ?_⟩
      rw [List.map_cons, slash]
      exact Text.splitAtEach_append List.not_mem_nil
  refine ⟨before, fun rest => segmentsOf_of_empty ?_⟩
  rw [List.map_append, List.map_cons]
  exact (Text.splitAtEach_append_cons '/' _ _).trans (by rw [first]; rfl)

/-- Segments in front of others leave a directory behind. -/
theorem resolve_append (done : List String) (before : List (List Char)) :
    ∃ dirs, ∀ parts, parts ≠ [] → resolve done (before ++ parts) = resolve dirs parts := by
  induction before generalizing done with
  | nil => exact ⟨done, fun _ _ => rfl⟩
  | cons segment before ih =>
    have goes_on : ∀ parts : List (List Char), parts ≠ [] → (before ++ parts).isEmpty = false := by
      intro parts filled
      simp [filled]
    by_cases above : isDotDot segment = true
    · obtain ⟨dirs, same⟩ := ih done.dropLast
      refine ⟨dirs, fun parts filled => ?_⟩
      rw [List.cons_append, resolve, goes_on parts filled, if_pos above, ← same parts filled]
      simp
    · by_cases here : isDot segment = true
      · obtain ⟨dirs, same⟩ := ih done
        refine ⟨dirs, fun parts filled => ?_⟩
        rw [List.cons_append, resolve, goes_on parts filled, if_neg above, if_pos here,
          ← same parts filled]
        simp
      · obtain ⟨dirs, same⟩ :=
          ih (done ++ [Text.Percent.encode isSpecial (String.ofList segment)])
        refine ⟨dirs, fun parts filled => ?_⟩
        rw [List.cons_append, resolve, if_neg above, if_neg here, same parts filled]

theorem resolve_cons {segment : List Char} (no_dot : isDot segment = false)
    (no_parent : isDotDot segment = false) (done : List String) (rest : List (List Char)) :
    resolve done (segment :: rest) =
      resolve (done ++ [Text.Percent.encode isSpecial (String.ofList segment)]) rest := by
  simp only [resolve, no_dot, no_parent, Bool.false_eq_true, if_false]

/-- What is added to a path is resolved from the directory that the URL named. -/
theorem IsBase.segments_append {url rest : String} (base : IsBase url)
    (path : IsPath rest.toList) :
    segments (url ++ "/" ++ rest) = resolve (directory url) (partsOf rest) := by
  obtain ⟨front, begins, reads⟩ := base.path_append
  obtain ⟨before, cut⟩ := segmentsOf_append begins
  obtain ⟨dirs, resolved⟩ := resolve_append [] before
  have each : ∀ rest : String, IsPath rest.toList →
      segments (url ++ "/" ++ rest) = resolve dirs (partsOf rest) := by
    intro rest path
    rw [segments, (reads rest path).2.2, cut, resolved]
    exact Text.splitAtEach_ne_nil '/' _
  have alone : segments (url ++ "/") = dirs ++ [""] := by
    have read := each "" (by decide)
    rw [String.append_empty] at read
    rw [read]
    rfl
  rw [each rest path, directory, alone, List.dropLast_concat]

/-- What stands behind the first `n` segments is empty or was added, and is no dot segment. -/
theorem resolve_behind (P : String → Prop) (n : Nat) (empty : P "") (done : List String)
    (parts : List (List Char)) (before : ∀ s ∈ done.drop n, P s)
    (added : ∀ part ∈ parts, isDot part = false → isDotDot part = false →
      P (Text.Percent.encode isSpecial (String.ofList part))) :
    ∀ s ∈ (resolve done parts).drop n, P s := by
  have ending : ∀ {kept : List String} (rest : List (List Char)), (∀ s ∈ kept.drop n, P s) →
      ∀ s ∈ (kept ++ if rest.isEmpty then [""] else []).drop n, P s := by
    intro kept rest known s listed
    obtain old | last := mem_of_mem_drop_append listed
    · exact known s old
    · split at last <;> simp_all
  induction parts generalizing done with
  | nil => exact before
  | cons part rest ih =>
    have later := fun done known => ih done known fun p listed =>
      added p (List.mem_cons_of_mem part listed)
    rw [resolve]
    split
    · refine later _ (ending rest fun s listed => before s ?_)
      rw [← List.dropLast_drop_eq_drop_dropLast] at listed
      exact List.dropLast_subset _ listed
    · rename_i no_parent
      split
      · exact later _ (ending rest before)
      · rename_i no_dot
        refine later _ fun s listed => ?_
        obtain old | new := mem_of_mem_drop_append listed
        · exact before s old
        · rw [List.mem_singleton.mp new]
          exact added part List.mem_cons_self (Bool.eq_false_iff.mpr no_dot)
            (Bool.eq_false_iff.mpr no_parent)

theorem segmentText?_eq {segment : String} (text : String)
    (bytes : Text.Percent.decodeBytes (Text.Utf8.encode segment) = Text.Utf8.encode text) :
    segmentText? segment = some text := by
  rw [segmentText?, bytes, Text.Utf8.decode?_encode]

theorem spares_isSpecial : Text.Percent.SparesEscapes isSpecial := by
  have each : Text.Percent.escapeChars.all
      (fun c => !isSpecial (UInt8.ofNat c.toNat)) = true := by decide
  exact fun c listed => by simpa using List.all_eq_true.mp each c listed

/-- A letter is its lower case, or the upper case of that. -/
theorem toLower_cases (c : Char) : c = c.toLower ∨ c = c.toLower.toUpper := by
  by_cases upper : 65 ≤ c.toNat ∧ c.toNat ≤ 90
  · have each : ∀ n < 26, Char.ofNat (n + 65) = (Char.ofNat (n + 65)).toLower.toUpper := by decide
    have letter := each (c.toNat - 65) (by omega)
    rw [Nat.sub_add_cancel upper.1, Char.ofNat_toNat] at letter
    exact .inr letter
  · exact .inl (Eq.symm (dif_neg fun between => upper between))

/-- What is taken for a segment when case does not count. -/
def spellings : List Char → List (List Char)
  | [] => [[]]
  | c :: cs =>
    (if c.toUpper = c then [c] else [c, c.toUpper]).flatMap fun d => (spellings cs).map (d :: ·)

theorem mem_spellings (segment : List Char) : segment ∈ spellings (isDot.lower segment) := by
  induction segment with
  | nil => exact List.mem_singleton.mpr rfl
  | cons c cs ih =>
    refine List.mem_flatMap.mpr ⟨c, ?_, List.mem_map_of_mem ih⟩
    split
    · rename_i same
      obtain lower | upper := toLower_cases c
      · exact List.mem_singleton.mpr lower
      · exact List.mem_singleton.mpr (upper.trans same)
    · simpa using toLower_cases c

/-- A dot segment reads as the dots that it stands for. -/
theorem segmentText?_of_isDot {segment : List Char} (dot : isDot segment = true) :
    segmentText? (String.ofList segment) = some "." := by
  have each : ∀ l ∈ [".".toList, "%2e".toList], ∀ s ∈ spellings l,
      Text.Percent.decodeBytes (Text.Utf8.encode (String.ofList s)) = Text.Utf8.encode "." := by
    decide
  exact segmentText?_eq _ (each (isDot.lower segment) (by simpa [isDot] using dot) segment
    (mem_spellings segment))

theorem segmentText?_of_isDotDot {segment : List Char} (dots : isDotDot segment = true) :
    segmentText? (String.ofList segment) = some ".." := by
  have each : ∀ l ∈ ["..".toList, ".%2e".toList, "%2e.".toList, "%2e%2e".toList],
      ∀ s ∈ spellings l,
        Text.Percent.decodeBytes (Text.Utf8.encode (String.ofList s)) = Text.Utf8.encode ".." := by
    decide
  exact segmentText?_eq _ (each (isDot.lower segment) (by simpa [isDotDot, or_assoc] using dots)
    segment (mem_spellings segment))

/-- The characters at which a target is cut. -/
def cuts : List Char := "/?#".toList

theorem notMem_of_mem_segmentsOf {path part : List Char} (listed : part ∈ segmentsOf path) :
    '/' ∉ part := by
  rw [segmentsOf] at listed
  split at listed
  · rename_i cut
    exact Text.notMem_of_mem_splitAtEach (cut ▸ List.mem_cons_of_mem [] listed)
  · exact Text.notMem_of_mem_splitAtEach listed

theorem uncut_encode {part : List Char} (whole : '/' ∉ part) {c : Char} (cut : c ∈ cuts) :
    c ∉ (Text.Percent.encode isSpecial (String.ofList part)).toList := by
  intro held
  have named : c = '/' ∨ c = '?' ∨ c = '#' := by simpa [cuts] using cut
  obtain escape | ⟨shown, spared⟩ := Text.Percent.mem_encode held
  · obtain rfl | rfl | rfl := named <;> exact absurd escape (by decide)
  · rw [String.toList_ofList] at shown
    obtain rfl | rfl | rfl := named
    · exact whole shown
    · exact absurd spared (by decide)
    · exact absurd spared (by decide)

/-- A target can be cut into the segments again that it was made of. -/
theorem uncut_segments {url s : String} (listed : s ∈ segments url) :
    ∀ c ∈ cuts, c ∉ s.toList := by
  have each := resolve_behind (fun s => ∀ c ∈ cuts, c ∉ s.toList) 0
    (fun _ _ => List.not_mem_nil) [] (segmentsOf (pathAndQuery url).1)
    (fun _ none => absurd none List.not_mem_nil)
    (fun _ here _ _ _ cut => uncut_encode (notMem_of_mem_segmentsOf here) cut)
  exact each s (by rwa [List.drop_zero])

/-- A path as it is sent has the segments of the URL. -/
theorem segments_target {url : String} (query : (pathAndQuery url).2 = none)
    (filled : segments url ≠ []) : (Target.ofText (target url)).segments = segments url := by
  generalize parts : (segments url).map String.toList = cs
  have uncut : ∀ part ∈ cs, ∀ c ∈ cuts, c ∉ part := by
    intro part listed
    rw [← parts] at listed
    obtain ⟨s, here, rfl⟩ := List.mem_map.mp listed
    exact uncut_segments here
  have text : (target url).toList = '/' :: ['/'].intercalate cs := by
    rw [target, query, String.toList_append, String.toList_intercalate, parts]
    rfl
  have absent : ∀ c ∈ cuts, c ≠ '/' → c ∉ '/' :: ['/'].intercalate cs := by
    intro c cut other listed
    obtain slash | ⟨part, known, inside⟩ :=
      (List.mem_cons.mp listed).elim .inl Text.mem_intercalate
    · exact other slash
    · exact uncut part known c cut inside
  have path : pathOf ('/' :: ['/'].intercalate cs) = '/' :: ['/'].intercalate cs := rfl
  rw [Target.ofText, text, path, cutAt_of_notMem (absent '#' (by decide) (by decide)),
    cutAt_of_notMem (absent '?' (by decide) (by decide))]
  change ((Text.splitAtEach '/' ([] ++ '/' :: ['/'].intercalate cs)).tail).map String.ofList = _
  rw [Text.splitAtEach_append List.not_mem_nil, List.tail_cons, Text.splitAtEach_intercalate,
    ← parts, List.map_map]
  · simp [Function.comp_def]
  · simpa [← parts] using filled
  · exact fun part listed => uncut part listed '/' (by decide)

end Url

end Web

end QuorumKv
