import QuorumKv.Node.Web
import QuorumKv.Remote
import QuorumKv.Proofs.Key
import QuorumKv.Proofs.Web.Url

/-! Which resource a key's URL leads to. A key without backslashes that is no dot segment has one of
its own. No other key is ever asked for: a backslash in it begins a new segment, and dots are
resolved, so that its URL leads elsewhere. -/
namespace QuorumKv

namespace Key

open Text.Percent (charText escapeChars)

/-- A key does not cut its URL short, and only a backslash cuts its segment in two. -/
theorem plain_of_mem_charText {c d : Char} (listed : d ∈ charText isSpecial c) :
    Web.Url.isMargin d = false ∧ d ≠ '?' ∧ d ≠ '#' ∧ d ≠ '/' ∧ (d = '\\' → c = '\\') := by
  obtain ⟨same, spared⟩ | escaped := Text.Percent.charText_cases isSpecial c
  · rw [same, List.mem_singleton] at listed
    subst listed
    have special : ∀ n ≤ 0x20, isSpecial (UInt8.ofNat n) = true := by decide
    refine ⟨?_, ?_, ?_, ?_, id⟩
    · refine Bool.eq_false_iff.mpr fun margin => ?_
      rw [special d.toNat (by simpa [Web.Url.isMargin] using margin)] at spared
      cases spared
    all_goals
      rintro rfl
      exact absurd spared (by decide)
  · have each : (escapeChars.all fun d => !Web.Url.isMargin d && d != '?' && d != '#' && d != '/' &&
        d != '\\') = true := by decide
    have plain := List.all_eq_true.mp each d (escaped d listed)
    simp only [Bool.and_eq_true, Bool.not_eq_true', bne_iff_ne] at plain
    obtain ⟨⟨⟨⟨margin, query⟩, fragment⟩, slash⟩, backslash⟩ := plain
    exact ⟨margin, query, fragment, slash, fun same => absurd same backslash⟩

theorem isPath_urlSegment (key : String) : Web.Url.IsPath (urlSegment key).toList := by
  intro d listed
  rw [urlSegment, Text.Percent.toList_encode] at listed
  obtain ⟨c, -, here⟩ := List.mem_flatMap.mp listed
  obtain ⟨margin, query, fragment, -, -⟩ := plain_of_mem_charText here
  exact ⟨margin, query, fragment⟩

/-- A key's segment reads as the key, as it is written and as it is sent. -/
theorem segmentText?_urlSegment (key : String) :
    Web.segmentText? (urlSegment key) = some key ∧
      Web.segmentText? (Text.Percent.encode Web.Url.isSpecial (urlSegment key)) = some key :=
  ⟨Web.Url.segmentText?_eq key (Text.Percent.decode_encode (by decide) key),
    Web.Url.segmentText?_eq key
      (Text.Percent.decode_encode_encode (by decide) Web.Url.spares_isSpecial key)⟩

theorem asSlash_charText {c : Char} (plain : c ≠ '\\') :
    (charText isSpecial c).map Web.Url.asSlash = charText isSpecial c := by
  refine (List.map_congr_left fun d listed => ?_).trans (List.map_id _)
  have other : d ≠ '\\' := fun same => plain ((plain_of_mem_charText listed).2.2.2.2 same)
  simp [Web.Url.asSlash, other]

/-- The parts of a key between its backslashes. -/
def pieces (key : String) : List String :=
  (Text.splitAtEach '\\' key.toList).map String.ofList

theorem backslash_notMem_pieces {key piece : String} (listed : piece ∈ pieces key) :
    '\\' ∉ piece.toList := by
  obtain ⟨part, here, rfl⟩ := List.mem_map.mp listed
  rw [String.toList_ofList]
  exact Text.notMem_of_mem_splitAtEach here

/-- A backslash in a key ends a segment, as a slash would. -/
theorem splitAtEach_urlSegment (key : String) :
    Text.splitAtEach '/' ((urlSegment key).toList.map Web.Url.asSlash) =
      (pieces key).map fun piece => (urlSegment piece).toList := by
  have slash : ∀ c, c ≠ '\\' → '/' ∉ (charText isSpecial c).map Web.Url.asSlash := by
    intro c plain listed
    rw [asSlash_charText plain] at listed
    exact (plain_of_mem_charText listed).2.2.2.1 rfl
  have cut := Text.splitAtEach_flatMap (fun c => (charText isSpecial c).map Web.Url.asSlash)
    (by decide) slash key.toList
  rw [urlSegment, Text.Percent.toList_encode, List.map_flatMap, cut, pieces, List.map_map]
  refine List.map_congr_left fun part listed => ?_
  rw [Function.comp_apply, urlSegment, Text.Percent.toList_encode, String.toList_ofList]
  refine List.flatMap_congr fun c here => asSlash_charText fun same => ?_
  exact Text.notMem_of_mem_splitAtEach listed (same ▸ here)

end Key

/-- The resource that a target names, by its pattern, and the texts that it leaves open. -/
def Web.reached {σ : Type} (resources : List (Web.Resource σ)) (target : String) :
    Option (List Web.Piece × Option (List String)) :=
  (Web.find? resources (Web.Target.ofText target).segments).map fun (resource, found) =>
    (resource.pattern, found.mapM Web.segmentText?)

namespace Remote

open Web (segmentText?)
open Web.Url (IsBase directory segments)

/-- What there is to ask for under a key. -/
inductive Facet where
  | value
  | metadata
  deriving DecidableEq

namespace Facet

def url (facet : Facet) (endpoint key : String) : String :=
  match facet with
  | value => keyUrl endpoint key
  | metadata => keyUrl endpoint key ++ "/meta"

/-- The segments behind the key's own. -/
def below : Facet → List String
  | value => []
  | metadata => ["meta"]

/-- The resource of a node that answers. -/
def pattern : Facet → List Web.Piece
  | value => [.word "kv", .any]
  | metadata => [.word "kv", .any, .word "meta"]

/-- What a URL adds to the endpoint's. -/
def path (facet : Facet) (key : String) : String :=
  "kv/" ++ Key.urlSegment key ++
    match facet with
    | value => ""
    | metadata => "/meta"

theorem url_eq (facet : Facet) (endpoint key : String) :
    facet.url endpoint key = base endpoint ++ "/" ++ facet.path key := by
  have front : "/kv/" = "/" ++ "kv/" := by decide
  cases facet <;> simp only [url, path, keyUrl, front, String.append_assoc, String.append_empty]

theorem isPath_path (facet : Facet) (key : String) : Web.Url.IsPath (facet.path key).toList := by
  have front : Web.Url.IsPath ("kv/" ++ Key.urlSegment key).toList := by
    rw [String.toList_append]
    exact .append (by decide) (Key.isPath_urlSegment key)
  cases facet <;> (rw [path, String.toList_append]; exact front.append (by decide))

/-- The key's segment stands between `kv` and what is asked for, in as many parts as backslashes cut
it into. -/
theorem partsOf_path (facet : Facet) (key : String) :
    Web.Url.partsOf (facet.path key) = "kv".toList ::
      ((Key.pieces key).map (fun piece => (Key.urlSegment piece).toList) ++
        facet.below.map String.toList) := by
  have begins : ∀ rest : List Char, Text.splitAtEach '/' ("kv".toList ++ '/' :: rest) =
      "kv".toList :: Text.splitAtEach '/' rest :=
    fun rest => Text.splitAtEach_append (by decide)
  have front : "kv/".toList.map Web.Url.asSlash = "kv".toList ++ ['/'] := by decide
  have behind : "/meta".toList.map Web.Url.asSlash = '/' :: "meta".toList := by decide
  rw [← Key.splitAtEach_urlSegment, Web.Url.partsOf, path.eq_def, String.toList_append,
    String.toList_append, List.map_append, List.map_append, front, List.append_assoc,
    List.append_assoc, List.singleton_append, begins]
  cases facet with
  | value =>
    rw [String.toList_empty, List.map_nil, List.append_nil, below, List.map_nil, List.append_nil]
  | metadata =>
    rw [behind, Text.splitAtEach_append_cons]
    rfl

theorem segments_url {endpoint : String} (known : IsBase (base endpoint)) (facet : Facet)
    (key : String) :
    segments (facet.url endpoint key) = Web.Url.resolve (directory (base endpoint) ++ ["kv"])
      ((Key.pieces key).map (fun piece => (Key.urlSegment piece).toList) ++
        facet.below.map String.toList) := by
  rw [url_eq, known.segments_append (facet.isPath_path key), partsOf_path,
    Web.Url.resolve_cons (by decide) (by decide)]
  rfl

/-- The URL's path is the endpoint's, then `kv`, one segment that reads as the key, and what is
asked for. -/
def IsOwn (facet : Facet) (endpoint key : String) : Prop :=
  ∃ segment, segments (facet.url endpoint key) =
      directory (base endpoint) ++ "kv" :: segment :: facet.below ∧
    segmentText? segment = some key

end Facet

/-- A key that stays as it is where a URL's path is read. -/
structure IsPlain (key : String) : Prop where
  whole : '\\' ∉ key.toList
  no_dot : key ≠ "."
  no_parent : key ≠ ".."

theorem isDot_urlSegment {key : String} (other : key ≠ ".") :
    Web.Url.isDot (Key.urlSegment key).toList = false := by
  refine Bool.eq_false_iff.mpr fun dot => other ?_
  have reads := Web.Url.segmentText?_of_isDot dot
  rw [String.ofList_toList, (Key.segmentText?_urlSegment key).1] at reads
  exact Option.some.inj reads

theorem isDotDot_urlSegment {key : String} (other : key ≠ "..") :
    Web.Url.isDotDot (Key.urlSegment key).toList = false := by
  refine Bool.eq_false_iff.mpr fun dots => other ?_
  have reads := Web.Url.segmentText?_of_isDotDot dots
  rw [String.ofList_toList, (Key.segmentText?_urlSegment key).1] at reads
  exact Option.some.inj reads

variable {endpoint key : String}

theorem IsPlain.segments_url (plain : IsPlain key) (known : IsBase (base endpoint))
    (facet : Facet) : segments (facet.url endpoint key) = directory (base endpoint) ++
      "kv" :: Text.Percent.encode Web.Url.isSpecial (Key.urlSegment key) :: facet.below := by
  have whole : Key.pieces key = [key] := by
    rw [Key.pieces, Text.splitAtEach_of_notMem plain.whole, List.map_singleton,
      String.ofList_toList]
  rw [facet.segments_url known, whole, List.map_singleton, List.singleton_append,
    Web.Url.resolve_cons (isDot_urlSegment plain.no_dot) (isDotDot_urlSegment plain.no_parent),
    String.ofList_toList, List.append_assoc]
  cases facet with
  | value => rfl
  | metadata =>
    rw [Facet.below, List.map_singleton, Web.Url.resolve_cons (by decide) (by decide),
      List.append_assoc]
    rfl

/-- A key that is not plain is never asked for: no segment behind `kv` reads as the key. -/
theorem segmentText?_ne_of_not_plain (known : IsBase (base endpoint)) (filled : key ≠ "")
    (not_plain : ¬ IsPlain key) (facet : Facet) {segment : String}
    (listed : segment ∈
      (segments (facet.url endpoint key)).drop ((directory (base endpoint)).length + 1)) :
    segmentText? segment ≠ some key := by
  rw [facet.segments_url known] at listed
  refine Web.Url.resolve_behind (fun s => segmentText? s ≠ some key) _ ?_ _ _ ?_ ?_ segment listed
  · rw [Web.Url.segmentText?_eq "" (by decide)]
    exact fun same => filled (Option.some.inj same).symm
  · simp
  · intro part here no_dot no_parent
    obtain own | fixed := List.mem_append.mp here
    · obtain ⟨piece, cut, rfl⟩ := List.mem_map.mp own
      rw [String.ofList_toList, (Key.segmentText?_urlSegment piece).2]
      rintro ⟨⟩
      refine not_plain ⟨Key.backslash_notMem_pieces cut, ?_, ?_⟩
      · rintro rfl
        exact absurd no_dot (by decide)
      · rintro rfl
        exact absurd no_parent (by decide)
    · have meta_part : part = "meta".toList := by
        cases facet <;> simp_all [Facet.below]
      rw [meta_part, Web.Url.segmentText?_eq "meta" (by decide)]
      rintro ⟨⟩
      exact not_plain ⟨by decide, by decide, by decide⟩

theorem isOwn_iff (known : IsBase (base endpoint)) (filled : key ≠ "") (facet : Facet) :
    facet.IsOwn endpoint key ↔ IsPlain key := by
  constructor
  · rintro ⟨segment, path, reads⟩
    by_contra not_plain
    refine segmentText?_ne_of_not_plain known filled not_plain facet ?_ reads
    rw [path]
    simp
  · intro plain
    exact ⟨_, plain.segments_url known facet, (Key.segmentText?_urlSegment key).2⟩

theorem segments_ne_nil (known : IsBase (base endpoint)) (plain : IsPlain key) (facet : Facet) :
    segments (facet.url endpoint key) ≠ [] := by
  simp [plain.segments_url known facet]

/-- What is added for a key belongs to the path of the URL; who is asked stays the same. -/
theorem url_reads (known : IsBase (base endpoint)) (facet : Facet) (key : String) :
    Web.Url.authority (facet.url endpoint key) = Web.Url.authority (base endpoint ++ "/") ∧
      (Web.Url.pathAndFragment (facet.url endpoint key)).2 = none ∧
      (Web.Url.pathAndQuery (facet.url endpoint key)).2 = none := by
  obtain ⟨front, -, reads⟩ := known.path_append
  obtain ⟨authority, fragment, query⟩ := reads (facet.path key) (facet.isPath_path key)
  rw [facet.url_eq, fragment, query]
  exact ⟨authority, rfl, rfl⟩

/-- Plain keys share no resource, neither their values nor their metadata. -/
theorem IsPlain.eq_of_segments {other : String} (plain : IsPlain key) (plain_other : IsPlain other)
    (known : IsBase (base endpoint)) {facet facet' : Facet}
    (same : segments (facet'.url endpoint other) = segments (facet.url endpoint key)) :
    facet' = facet ∧ other = key := by
  rw [plain.segments_url known, plain_other.segments_url known, List.append_cancel_left_eq,
    List.cons.injEq, List.cons.injEq] at same
  obtain ⟨-, segment, behind⟩ := same
  have text := congrArg segmentText? segment
  rw [(Key.segmentText?_urlSegment key).2, (Key.segmentText?_urlSegment other).2] at text
  refine ⟨?_, Option.some.inj text⟩
  cases facet <;> cases facet' <;> first | rfl | cases behind

/-- A node finds the resource of what is asked for, and in it the key. -/
theorem IsPlain.reached (plain : IsPlain key) (filled : key ≠ "") (known : IsBase (base endpoint))
    (top : directory (base endpoint) = []) (facet : Facet) (limits : Config.Limits) (now : Nat) :
    Web.reached (Node.resources limits now) (Web.Url.target (facet.url endpoint key)) =
      some (facet.pattern, some [key]) := by
  rw [Web.reached, Web.Url.segments_target (url_reads known facet key).2.2
    (segments_ne_nil known plain facet), plain.segments_url known, top, List.nil_append]
  have reads := (Key.segmentText?_urlSegment key).2
  generalize Text.Percent.encode Web.Url.isSpecial (Key.urlSegment key) = segment at reads ⊢
  have sent : segment ≠ "" := by
    rintro rfl
    rw [Web.Url.segmentText?_eq "" (by decide)] at reads
    exact filled (Option.some.inj reads).symm
  cases facet <;>
    simp [Facet.below, Facet.pattern, Web.find?, Node.resources, Web.capture, sent, reads]

/-- For every endpoint and every valid key: the key's URLs keep the endpoint's authority and end
with their paths. They lead to resources of the key's own exactly when the key is plain. Such a key
shares its resources with no other one, and a node behind the endpoint finds the key in them. -/
theorem own_resource_iff_plain (known : IsBase (base endpoint)) {maxLength : Nat}
    (valid : Key.validate maxLength key = .ok ()) (facet : Facet) :
    (Web.Url.authority (facet.url endpoint key) = Web.Url.authority (base endpoint ++ "/") ∧
      (Web.Url.pathAndFragment (facet.url endpoint key)).2 = none ∧
      (Web.Url.pathAndQuery (facet.url endpoint key)).2 = none) ∧
    (facet.IsOwn endpoint key ↔ IsPlain key) ∧
    (IsPlain key →
      (∀ other facet', IsPlain other →
        segments (Facet.url facet' endpoint other) = segments (facet.url endpoint key) →
          facet' = facet ∧ other = key) ∧
      (directory (base endpoint) = [] → ∀ limits now,
        Web.reached (Node.resources limits now) (Web.Url.target (facet.url endpoint key)) =
          some (facet.pattern, some [key]))) := by
  have filled := (Key.valid_of_validate valid).filled
  exact ⟨url_reads known facet key, isOwn_iff known filled facet, fun plain =>
    ⟨fun _ _ plain_other same => plain.eq_of_segments plain_other known same,
      fun top limits now => plain.reached filled known top facet limits now⟩⟩

/-- Slashes and question marks leave a key its own resource; a backslash leads to another key's
metadata. -/
theorem own_resource_of_slashes :
    (IsBase (base "http://h:1/") ∧ Key.validate 250 "/名?" = .ok () ∧
      Key.validate 250 "k\\meta" = .ok ()) ∧
    Facet.metadata.IsOwn "http://h:1/" "/名?" ∧
    Web.reached (Node.resources ⟨250, 1024⟩ 0)
      (Web.Url.target (Facet.metadata.url "http://h:1/" "/名?")) =
      some ([.word "kv", .any, .word "meta"], some ["/名?"]) ∧
    ¬ Facet.value.IsOwn "http://h:1/" "k\\meta" := by
  have known : IsBase (base "http://h:1/") := ⟨by decide, by decide, by decide⟩
  have valid : Key.validate 250 "/名?" = .ok () := by rfl
  have valid_too : Key.validate 250 "k\\meta" = .ok () := by rfl
  have plain : IsPlain "/名?" := ⟨by decide, by decide, by decide⟩
  have top : directory (base "http://h:1/") = [] := by decide
  obtain ⟨-, own, served⟩ := own_resource_iff_plain known valid .metadata
  obtain ⟨-, lost, -⟩ := own_resource_iff_plain known valid_too .value
  exact ⟨⟨known, valid, valid_too⟩, own.mpr plain, (served plain).2 top ⟨250, 1024⟩ 0,
    fun own => (lost.mp own).whole (by decide)⟩

end Remote

end QuorumKv
