import Cordboard.Construction.Connections
import Mathlib.Data.List.DropRight

namespace Cordboard.Url

/-- A path is empty or starts at a slash. -/
def IsPath (text : List Char) : Prop := ∀ c ∈ text.head?, c = '/'

theorem takeWhile_path {host path : List Char} (lead : IsPath path) :
    (host ++ path).takeWhile (fun c => !isDelimiter c) = host.takeWhile fun c => !isDelimiter c := by
  rw [List.takeWhile_append]
  split
  · rename_i full
    have whole := (List.takeWhile_prefix fun c => !isDelimiter c).eq_of_length full
    cases path with
    | nil => simp [whole]
    | cons c rest =>
        obtain rfl := lead c rfl
        rw [whole, List.takeWhile_cons_of_neg (by decide), List.append_nil]
  · rfl

/-- A path after a network location does not change the network location. -/
theorem splitNetloc_path {rest path : List Char} (lead : IsPath path) (doubled : ∃ host, rest = '/' :: '/' :: host) :
    splitNetloc (rest ++ path) = splitNetloc rest := by
  obtain ⟨host, rfl⟩ := doubled
  exact takeWhile_path lead

theorem takeWhile_slashes {slashes : List Char} (all : ∀ c ∈ slashes, c = '/') :
    slashes.takeWhile (fun c => !isDelimiter c) = [] := by
  cases slashes with
  | nil => rfl
  | cons c rest =>
      obtain rfl := all c List.mem_cons_self
      rfl

/-- A network location stands after two slashes. -/
theorem splitNetloc_doubled {text : List Char} (found : splitNetloc text ≠ []) :
    ∃ host, text = '/' :: '/' :: host ∧ host.takeWhile (fun c => !isDelimiter c) ≠ [] := by
  unfold splitNetloc at found
  split at found
  · rename_i host
    exact ⟨host, rfl, found⟩
  · exact absurd rfl found

/-- Slashes at the end are not a network location. -/
theorem doubled_of_splitNetloc {rest slashes : List Char} (all : ∀ c ∈ slashes, c = '/')
    (found : splitNetloc (rest ++ slashes) ≠ []) : ∃ host, rest = '/' :: '/' :: host := by
  obtain ⟨host, equal, named⟩ := splitNetloc_doubled found
  cases rest with
  | nil =>
      rw [List.nil_append] at equal
      subst slashes
      exact absurd (takeWhile_slashes fun c member => all c (by simp [member])) named
  | cons c rest =>
      rw [List.cons_append] at equal
      obtain ⟨first, tail⟩ := List.cons.inj equal
      subst c
      cases rest with
      | nil =>
          rw [List.nil_append] at tail
          subst slashes
          exact absurd (takeWhile_slashes fun c member => all c (by simp [member])) named
      | cons d host =>
          rw [List.cons_append] at tail
          obtain ⟨second, _⟩ := List.cons.inj tail
          exact ⟨host, by rw [second]⟩

/-- What follows the colon of a scheme does not change the scheme. -/
theorem splitScheme_append {url : List Char} (colon : ':' ∈ url) (suffix : List Char) :
    splitScheme (url ++ suffix) = ((splitScheme url).1, (splitScheme url).2 ++ suffix) := by
  have stops : ¬ ∀ c ∈ url, (c != ':') = true := fun all => absurd (all ':' colon) (by simp)
  have front : (url ++ suffix).takeWhile (· != ':') = url.takeWhile (· != ':') := by
    rw [List.takeWhile_append, if_neg]
    intro same
    have whole := (List.takeWhile_prefix (· != ':')).eq_of_length same
    exact stops (List.takeWhile_eq_self_iff.mp whole)
  have back : (url ++ suffix).dropWhile (· != ':') = url.dropWhile (· != ':') ++ suffix := by
    rw [List.dropWhile_append, if_neg]
    rw [List.isEmpty_iff, List.dropWhile_eq_nil_iff]
    exact stops
  have open_ : url.dropWhile (· != ':') ≠ [] := fun none => stops (List.dropWhile_eq_nil_iff.mp none)
  unfold splitScheme
  rw [front, back]
  cases rest : url.dropWhile (· != ':') with
  | nil => exact absurd rest open_
  | cons c rest =>
      simp only [List.cons_append]
      split <;> rfl

/-- A URL without a colon has no scheme. -/
theorem colon_of_scheme {url : List Char} (found : (splitScheme url).1 ≠ []) : ':' ∈ url := by
  by_contra absent
  apply found
  have none : url.dropWhile (· != ':') = [] :=
    List.dropWhile_eq_nil_iff.mpr fun c member => by
      rw [bne_iff_ne]
      intro same
      exact absent (same ▸ member)
  rw [splitScheme, none]

theorem cleaned_append {url : List Char} (visible : ∃ c ∈ url, isControlOrSpace c = false) (suffix : List Char) :
    cleaned (url ++ suffix) = cleaned url ++ suffix.filter fun c => !isUnsafe c := by
  obtain ⟨c, member, shown⟩ := visible
  have stops : (url.dropWhile isControlOrSpace).isEmpty = false := by
    rw [List.isEmpty_eq_false_iff]
    intro none
    have hidden := List.dropWhile_eq_nil_iff.mp none c member
    rw [shown] at hidden
    cases hidden
  rw [cleaned, List.dropWhile_append, stops, if_neg Bool.false_ne_true, List.filter_append, cleaned]

theorem filter_slashes {slashes : List Char} (all : ∀ c ∈ slashes, c = '/') :
    (slashes.filter fun c => !isUnsafe c) = slashes := by
  apply List.filter_eq_self.mpr
  intro c member
  rw [all c member]
  rfl

theorem isPath_filter {path : List Char} (lead : IsPath path) : IsPath (path.filter fun c => !isUnsafe c) := by
  cases path with
  | nil => exact lead
  | cons c rest =>
      obtain rfl := lead c rfl
      intro c first
      rw [List.filter_cons_of_pos (by decide)] at first
      exact (Option.some.inj first).symm

/-- A URL of slashes has no scheme. -/
theorem visible_of_scheme {url slashes : List Char} (all : ∀ c ∈ slashes, c = '/')
    (found : (splitScheme (cleaned (url ++ slashes))).1 ≠ []) : ∃ c ∈ url, isControlOrSpace c = false := by
  by_contra hidden
  simp only [not_exists, not_and, Bool.not_eq_false] at hidden
  have blank : url.dropWhile isControlOrSpace = [] :=
    List.dropWhile_eq_nil_iff.mpr hidden
  have colon := colon_of_scheme found
  rw [cleaned, List.mem_filter] at colon
  have member := (List.dropWhile_suffix isControlOrSpace).subset colon.1
  rcases List.mem_append.mp member with inside | inside
  · have visible := hidden ':' inside
    revert visible
    decide
  · cases all ':' inside

/-- Slashes at the end and a path in their place do not change the scheme and the network location. -/
theorem parts_path {url slashes path : List Char} (all : ∀ c ∈ slashes, c = '/') (lead : IsPath path)
    (scheme : (parts (url ++ slashes)).scheme ≠ []) (netloc : (parts (url ++ slashes)).netloc ≠ []) :
    parts (url ++ path) = parts (url ++ slashes) := by
  have visible := visible_of_scheme all scheme
  have slashed := cleaned_append visible slashes
  rw [filter_slashes all] at slashed
  have colon : ':' ∈ cleaned url := by
    have member := colon_of_scheme scheme
    rw [slashed, List.mem_append] at member
    rcases member with inside | inside
    · exact inside
    · cases all ':' inside
  have tail := splitScheme_append colon slashes
  simp only [parts, slashed, tail] at netloc
  have doubled := doubled_of_splitNetloc all netloc
  have slashesLead : IsPath slashes := by
    cases slashes with
    | nil => exact fun c none => absurd none (by simp)
    | cons c rest =>
        intro d first
        obtain rfl := Option.some.inj first
        exact all c List.mem_cons_self
  simp only [parts, cleaned_append visible path, slashed, splitScheme_append colon]
  rw [splitNetloc_path (isPath_filter lead) doubled, splitNetloc_path slashesLead doubled]

/-- A URL without a network location has no host. -/
theorem netloc_of_hostname {result : SplitResult} (found : result.hostname ≠ []) : result.netloc ≠ [] := by
  intro none
  apply found
  simp [SplitResult.hostname, SplitResult.hostinfo, none]

end Cordboard.Url

namespace Cordboard.Connections
open Url

/-- The host of an endpoint answers over HTTP, and the endpoint carries no credentials. -/
structure Addressed (refusal : Refusal) (endpoint : String) : Prop where
  unrefused : refusal (String.ofList (parts endpoint.toList).netloc) = none
  scheme : (parts endpoint.toList).scheme = "http".toList ∨ (parts endpoint.toList).scheme = "https".toList
  hosted : (parts endpoint.toList).hostname ≠ []
  bare : (parts endpoint.toList).hasUserinfo = false

theorem Addressed.scheme_ne {refusal : Refusal} {endpoint : String} (addressed : Addressed refusal endpoint) :
    (parts endpoint.toList).scheme ≠ [] := by
  rcases addressed.scheme with same | same <;> rw [same] <;> decide

/-- The validation accepts exactly the addressed endpoints, and it drops the slashes at the end. -/
theorem validateEndpoint_ok_iff {refusal : Refusal} {endpoint stored : String} :
    validateEndpoint refusal endpoint = .ok stored ↔
      Addressed refusal endpoint ∧ stored = EntityAuth.stripSlashes endpoint := by
  constructor
  · intro accepted
    unfold validateEndpoint urlsplit at accepted
    split at accepted
    · cases accepted
    split at accepted
    · cases accepted
    rename_i parsed found
    dsimp only at found
    split at found
    · cases found
    rename_i unrefused
    obtain rfl := Except.ok.inj found
    split at accepted
    · cases accepted
    rename_i scheme
    split at accepted
    · cases accepted
    rename_i hosted
    split at accepted
    · cases accepted
    rename_i bare
    rw [not_and_or, not_not, not_not] at scheme
    exact ⟨⟨unrefused, scheme, fun none => hosted (List.isEmpty_iff.mpr none), Bool.not_eq_true _ ▸ bare⟩,
      (Except.ok.inj accepted).symm⟩
  · intro ⟨addressed, same⟩
    have visible : blank endpoint = false := by
      have colon := colon_of_scheme addressed.scheme_ne
      rw [cleaned, List.mem_filter] at colon
      have member := (List.dropWhile_suffix isControlOrSpace).subset colon.1
      rw [blank, List.all_eq_false]
      exact ⟨':', member, by decide⟩
    have schemed : ¬ ((parts endpoint.toList).scheme ≠ "http".toList ∧ (parts endpoint.toList).scheme ≠ "https".toList) := by
      rw [not_and_or, not_not, not_not]
      exact addressed.scheme
    have hosted : (parts endpoint.toList).hostname.isEmpty = false := by
      rw [List.isEmpty_eq_false_iff]
      exact addressed.hosted
    rw [same]
    simp only [validateEndpoint, visible, urlsplit, addressed.unrefused, schemed, hosted, addressed.bare,
      Bool.false_eq_true, if_false]

/-- The slashes at the end of an endpoint are cut off. -/
theorem stripSlashes_append (endpoint : String) :
    ∃ slashes : List Char, (∀ c ∈ slashes, c = '/') ∧
      endpoint.toList = (EntityAuth.stripSlashes endpoint).toList ++ slashes := by
  refine ⟨endpoint.toList.rtakeWhile (· == '/'), ?_, ?_⟩
  · intro c member
    rw [List.rtakeWhile, List.mem_reverse] at member
    exact eq_of_beq (@List.mem_takeWhile_imp _ (· == '/') _ _ member)
  · have whole := @List.rdropWhile_append_rtakeWhile _ (· == '/') endpoint.toList
    rw [EntityAuth.stripSlashes, String.toList_ofList]
    exact whole.symm

theorem stripSlashes_idem (endpoint : String) :
    EntityAuth.stripSlashes (EntityAuth.stripSlashes endpoint) = EntityAuth.stripSlashes endpoint := by
  have idem := @List.rdropWhile_idempotent _ (· == '/') endpoint.toList
  unfold EntityAuth.stripSlashes
  rw [String.toList_ofList]
  exact congrArg String.ofList idem

/-- A path after the stored endpoint keeps the scheme and the network location of the given endpoint. -/
theorem parts_stored {refusal : Refusal} {endpoint : String} (addressed : Addressed refusal endpoint) (path : String)
    (lead : IsPath path.toList) :
    parts (EntityAuth.stripSlashes endpoint ++ path).toList = parts endpoint.toList := by
  obtain ⟨slashes, all, whole⟩ := stripSlashes_append endpoint
  have scheme := addressed.scheme_ne
  have netloc := netloc_of_hostname addressed.hosted
  rw [whole] at scheme netloc ⊢
  rw [String.toList_append]
  exact parts_path all lead scheme netloc

/-- A request to a path of a stored endpoint goes to the addressed host. -/
theorem Addressed.request {refusal : Refusal} {endpoint : String} (addressed : Addressed refusal endpoint)
    (path : String) (lead : IsPath path.toList) : Addressed refusal (EntityAuth.stripSlashes endpoint ++ path) := by
  have same := parts_stored addressed path lead
  constructor <;> rw [same]
  · exact addressed.unrefused
  · exact addressed.scheme
  · exact addressed.hosted
  · exact addressed.bare

/-- A stored endpoint passes its own validation unchanged. -/
theorem validateEndpoint_stored {refusal : Refusal} {endpoint stored : String}
    (accepted : validateEndpoint refusal endpoint = .ok stored) : validateEndpoint refusal stored = .ok stored := by
  obtain ⟨addressed, same⟩ := validateEndpoint_ok_iff.mp accepted
  have again := addressed.request "" fun c none => absurd none (by simp)
  rw [String.append_empty, ← same] at again
  rw [validateEndpoint_ok_iff]
  refine ⟨again, ?_⟩
  rw [same, stripSlashes_idem]

end Cordboard.Connections
