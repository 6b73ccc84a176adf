import C4Gateway.Lib.Text

/-! The base address of an upstream: the service strips copied operation paths before it stores it,
and the scheduler strips a version path from what is stored. -/

namespace C4Gateway.BaseUrl

open Text (isSpace trimSpace)

/-- What is used of package `net/url`.  `withPath` is the text of an address after its path has been
replaced. -/
structure Urls (U : Type) where
  parse : List Char → Option U
  scheme : U → List Char
  host : U → List Char
  hostname : U → List Char
  path : U → List Char
  rawQuery : U → List Char
  fragment : U → List Char
  hasUser : U → Bool
  withPath : U → List Char → List Char

/-- `strings.TrimRight` with a slash. -/
def trimRight (s : List Char) : List Char := s.rdropWhile (· = '/')

/-- What is assumed of `net/url`, for an address whose path has been cut.  `String` escapes the
path, so that reading it gives the same path, up to the slashes that are trimmed with the text; and
what it writes does not begin or end with white space, unless a query does. -/
structure Urls.Lawful {U : Type} (L : Urls U) : Prop where
  reads : ∀ s u path u', L.parse s = some u → path <+: L.path u →
    L.parse (trimRight (L.withPath u path)) = some u' → L.host u' ≠ [] →
    trimRight (L.path u') = trimRight path
  spaceless : ∀ s u path u', L.parse s = some u → path <+: L.path u →
    L.parse (trimRight (L.withPath u path)) = some u' → L.rawQuery u' = [] →
    trimSpace (trimRight (L.withPath u path)) = trimRight (L.withPath u path)

def operations : List (List Char) :=
  ["/chat/completions".toList, "/responses".toList, "/messages".toList]

def version : List Char := "/v1".toList

/-- A path that ends in the version, without it. -/
def cutVersion (path : List Char) : List Char :=
  let path := path.take (path.length - version.length)
  if path = ['/'] then [] else path

section
variable {U : Type} (lower : Char → Char) (L : Urls U)

/-- What the service leaves of a path that ends in an operation or a version.  The version is looked
for without trailing slashes, but cut with them. -/
def strippedBase (path : List Char) : Option (List Char) :=
  let operation := operations.find? (·.isSuffixOf (path.map lower))
  let rest := path.take (path.length - (operation.getD []).length)
  let lowered := (if operation.isSome then trimRight rest else path).map lower
  if version.isSuffixOf lowered then some (cutVersion rest)
  else if operation.isSome then some rest
  else none

/-- What the scheduler leaves of a path that ends in a version. -/
def strippedEndpoint (path : List Char) : Option (List Char) :=
  if version.isSuffixOf (path.map lower) then some (cutVersion path) else none

/-- The frame of the two normalisations. -/
def normalizeWith (strip : List Char → Option (List Char)) (base : List Char) : List Char :=
  let base := trimRight (trimSpace base)
  match L.parse base with
  | none => base
  | some parsed =>
    if L.path parsed = [] then base
    else
      match strip (trimRight (L.path parsed)) with
      | some path => trimRight (L.withPath parsed path)
      | none => trimRight base

def normalizeUpstreamBaseURL (base : List Char) : List Char :=
  normalizeWith L (strippedBase lower) base

def normalizeUpstreamEndpoint (base : List Char) : List Char :=
  normalizeWith L (strippedEndpoint lower) base

def validateBaseURL (base : List Char) : Bool :=
  match L.parse base with
  | none => false
  | some u =>
    L.scheme u ≠ [] && L.host u ≠ [] &&
      (L.scheme u).map lower ∈ ["http".toList, "https".toList] && L.hostname u ≠ [] &&
      !L.hasUser u && L.rawQuery u = [] && L.fragment u = [] &&
      !version.isSuffixOf (if base.getLast? = some '/' then base.dropLast else base)

/-- What `validateUpstream` stores for an address that it accepts. -/
def storedBaseURL (input : List Char) : Option (List Char) :=
  let base := normalizeUpstreamBaseURL lower L input
  if validateBaseURL lower L base then some base else none

/-- Nothing is left to strip: a path that is stripped once does not end in an operation or a version
after that, and an address whose path is not stripped does not end in white space once its slashes
are gone. -/
def Settled (input : List Char) : Prop :=
  let base := trimRight (trimSpace input)
  ∀ u, L.parse base = some u →
    match strippedBase lower (trimRight (L.path u)) with
    | none => trimSpace base = base
    | some path => ∀ suffix ∈ version :: operations, ¬ suffix <:+ (trimRight path).map lower

variable {L} {lower} {strip : List Char → Option (List Char)} {s : List Char} {u : U}

theorem trimRight_trimRight (s : List Char) : trimRight (trimRight s) = trimRight s :=
  List.rdropWhile_idempotent _ s

theorem trimRight_prefix_self (s : List Char) : trimRight s <+: s := List.rdropWhile_prefix _ _

theorem trimRight_normalizeWith (input : List Char) :
    trimRight (normalizeWith L strip input) = normalizeWith L strip input := by
  unfold normalizeWith
  simp only
  repeat' split
  all_goals exact trimRight_trimRight _

/-- A path that is stripped gets shorter at its end. -/
def Cuts (strip : List Char → Option (List Char)) : Prop :=
  ∀ path rest, strip path = some rest → rest <+: path ∧ rest.length < path.length

theorem cutVersion_spec (path : List Char) :
    cutVersion path <+: path ∧ (cutVersion path).length ≤ path.length - version.length := by
  unfold cutVersion
  simp only
  split
  · exact ⟨List.nil_prefix, Nat.zero_le _⟩
  · exact ⟨List.take_prefix _ _, by simp⟩

theorem length_le_of_isSuffixOf {suffix path : List Char}
    (h : suffix.isSuffixOf (path.map lower) = true) : suffix.length ≤ path.length := by
  simpa using (List.isSuffixOf_iff_suffix.mp h).length_le

theorem cuts_strippedEndpoint : Cuts (strippedEndpoint lower) := by
  intro path rest h
  obtain ⟨hversion, hrest⟩ := Option.ite_none_right_eq_some.mp h
  obtain rfl := Option.some.inj hrest
  obtain ⟨hcut, hlength⟩ := cutVersion_spec path
  have hshort : 3 ≤ path.length := length_le_of_isSuffixOf hversion
  exact ⟨hcut, Nat.lt_of_le_of_lt hlength (Nat.sub_lt (by omega) (by decide))⟩

theorem cuts_strippedBase : Cuts (strippedBase lower) := by
  intro path rest h
  unfold strippedBase at h
  cases hfind : operations.find? (·.isSuffixOf (path.map lower)) with
  | none =>
    simp only [hfind, Option.isSome_none, Option.getD_none, List.length_nil, Nat.sub_zero,
      List.take_length] at h
    exact cuts_strippedEndpoint path rest (by simpa [strippedEndpoint] using h)
  | some operation =>
    have hsuffix : operation.isSuffixOf (path.map lower) = true := by
      simpa using List.find?_some hfind
    have hlong := length_le_of_isSuffixOf hsuffix
    have hpos : ∀ op ∈ operations, 0 < op.length := by decide
    have hpos := hpos operation (List.mem_of_find?_eq_some hfind)
    have hrest : path.take (path.length - operation.length) <+: path := List.take_prefix _ _
    simp only [hfind, Option.isSome_some, Option.getD_some, if_true] at h
    split at h
    · cases h
      obtain ⟨hcut, hlength⟩ := cutVersion_spec (path.take (path.length - operation.length))
      refine ⟨hcut.trans hrest, ?_⟩
      rw [List.length_take] at hlength
      omega
    · cases h
      refine ⟨hrest, ?_⟩
      rw [List.length_take]
      omega

theorem strippedBase_eq_none_iff {path : List Char} :
    strippedBase lower path = none ↔
      ∀ suffix ∈ version :: operations, ¬ suffix <:+ path.map lower := by
  simp only [List.forall_mem_cons, ← List.isSuffixOf_iff_suffix]
  unfold strippedBase
  cases hfind : operations.find? (·.isSuffixOf (path.map lower)) with
  | none =>
    have hnone := List.find?_eq_none.mp hfind
    simp only [Option.isSome_none, Bool.false_eq_true, if_false, ite_eq_right_iff, reduceCtorEq,
      imp_false]
    exact (and_iff_left hnone).symm
  | some operation =>
    have hmem := List.mem_of_find?_eq_some hfind
    have hsuffix := List.find?_some hfind
    simp only [Option.isSome_some, if_true]
    refine iff_of_false (by split <;> simp) fun h => h.2 operation hmem hsuffix

/-- A normalisation keeps the trimmed text, with a path that is not stripped, or cuts the path. -/
theorem normalizeWith_cases (hcuts : Cuts strip) (s : List Char) :
    (normalizeWith L strip s = trimRight (trimSpace s) ∧
      ∀ u, L.parse (trimRight (trimSpace s)) = some u → strip (trimRight (L.path u)) = none) ∨
    ∃ u path, L.parse (trimRight (trimSpace s)) = some u ∧
      strip (trimRight (L.path u)) = some path ∧
      normalizeWith L strip s = trimRight (L.withPath u path) := by
  have hnil : strip [] = none :=
    Option.eq_none_iff_forall_ne_some.mpr fun rest h => by simpa using (hcuts _ _ h).2
  cases hparse : L.parse (trimRight (trimSpace s)) with
  | none => exact .inl ⟨by simp [normalizeWith, hparse], by simp⟩
  | some u =>
    cases hstrip : strip (trimRight (L.path u)) with
    | none =>
      exact .inl ⟨by simp [normalizeWith, hparse, hstrip, trimRight_trimRight], by simpa⟩
    | some path =>
      have hpath : L.path u ≠ [] := by
        intro h
        rw [h] at hstrip
        exact absurd (hnil.symm.trans hstrip) (by simp)
      exact .inr ⟨u, path, rfl, hstrip, by simp [normalizeWith, hparse, hpath, hstrip]⟩

section
variable (hlaw : L.Lawful) (hcuts : Cuts strip)
include hlaw hcuts

theorem trimSpace_of_normalizeWith (hparse : L.parse s = some u) (hquery : L.rawQuery u = [])
    (h : normalizeWith L strip s = s) : trimSpace s = s := by
  rcases normalizeWith_cases (L := L) hcuts s with ⟨hs, -⟩ | ⟨v, path, hv, hstrip, hs⟩
  · have hcut : trimRight (trimSpace s) <+: trimSpace s := trimRight_prefix_self _
    have hinner : trimSpace s <:+: s := Text.trim_isInfix isSpace s
    rw [← hs, h] at hcut
    exact (hinner.eq_of_length_le hcut.length_le)
  · have hfront := (hcuts _ _ hstrip).1.trans (trimRight_prefix_self _)
    have htext : trimRight (L.withPath v path) = s := hs.symm.trans h
    have hspace := hlaw.spaceless _ v path u hv hfront (htext ▸ hparse) hquery
    rwa [htext] at hspace

/-- An accepted address stays as it is if and only if it has no white space at its ends and its path
is not stripped. -/
theorem normalizeWith_eq_self_iff (htrim : trimRight s = s) (hparse : L.parse s = some u)
    (hhost : L.host u ≠ []) (hquery : L.rawQuery u = []) :
    normalizeWith L strip s = s ↔ trimSpace s = s ∧ strip (trimRight (L.path u)) = none := by
  constructor
  · intro h
    have hspace := trimSpace_of_normalizeWith hlaw hcuts hparse hquery h
    refine ⟨hspace, Option.eq_none_iff_forall_ne_some.mpr fun path hstrip => ?_⟩
    obtain ⟨hfront, hshort⟩ := hcuts _ _ hstrip
    have hpath : L.path u ≠ [] := by
      intro hnil
      simp [hnil, trimRight] at hshort
    have htext : trimRight (L.withPath u path) = s := by
      simpa [normalizeWith, hspace, htrim, hparse, hpath, hstrip] using h
    have hread := hlaw.reads s u path u hparse (hfront.trans (trimRight_prefix_self _))
      (htext ▸ hparse) hhost
    have hle := (trimRight_prefix_self path).length_le
    rw [← hread] at hle
    omega
  · rintro ⟨hspace, hstrip⟩
    simp [normalizeWith, hspace, htrim, hparse, hstrip]

end

theorem strippedEndpoint_of_base {path : List Char} (h : strippedBase lower path = none) :
    strippedEndpoint lower path = none := by
  have hversion := strippedBase_eq_none_iff.mp h version List.mem_cons_self
  rw [← List.isSuffixOf_iff_suffix] at hversion
  exact if_neg hversion

theorem accepted_of_valid (h : validateBaseURL lower L s = true) :
    ∃ u, L.parse s = some u ∧ L.host u ≠ [] ∧ L.rawQuery u = [] := by
  unfold validateBaseURL at h
  split at h
  · cases h
  · next u hparse =>
    simp only [Bool.and_eq_true, decide_eq_true_eq] at h
    exact ⟨u, hparse, h.1.1.1.1.1.1.2, h.1.1.2⟩

end

/-- The addresses of one host, without user, port, query, fragment and white space, by their
paths. -/
def plainUrls : Urls (List Char) where
  parse s :=
    let path := s.drop 9
    if "https://h".toList.isPrefixOf s && !s.any isSpace && path.head?.all (· = '/') then some path
    else none
  scheme _ := "https".toList
  host _ := "h".toList
  hostname _ := "h".toList
  path u := u
  rawQuery _ := []
  fragment _ := []
  hasUser _ := false
  withPath _ path := "https://h".toList ++ path

theorem plainUrls_lawful : plainUrls.Lawful := by
  refine ⟨fun s u path u' _ _ hread _ => ?_, fun s u path u' _ _ hread _ => ?_⟩
  · have htrim : trimRight ("https://h".toList ++ path) = "https://h".toList ++ trimRight path := by
      unfold trimRight List.rdropWhile
      rw [List.reverse_append, List.dropWhile_append]
      split
      · next h => simp [List.isEmpty_iff.mp h]
      · simp
    obtain ⟨-, hpath⟩ := Option.ite_none_right_eq_some.mp hread
    obtain rfl := Option.some.inj hpath
    change trimRight (List.drop 9 (trimRight ("https://h".toList ++ path))) = trimRight path
    rw [htrim]
    simp [trimRight_trimRight]
  · obtain ⟨hplain, -⟩ := Option.ite_none_right_eq_some.mp hread
    simp only [Bool.and_eq_true, Bool.not_eq_true', List.any_eq_false] at hplain
    exact Text.trimSpace_of_forall fun c hc => by simpa using hplain.1.2 c hc

end C4Gateway.BaseUrl
