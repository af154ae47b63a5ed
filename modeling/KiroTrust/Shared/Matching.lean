import Mathlib.Data.List.Basic

set_option autoImplicit false

namespace Matching

/-! A list put in the order of a list of keys. -/

variable {A K : Type} [DecidableEq K] (key : A → K)

def takeEach : List K → List A → List A
  | [], all => all
  | k :: keys, all =>
    match all.find? fun a => key a = k with
    | some a => a :: takeEach keys (all.eraseP fun a => key a = k)
    | none => takeEach keys all

def withKey (all : List A) (k : K) : List A := all.filter fun a => key a = k

/-- The `n`th occurrence of a key, with `earlier` in front of it, takes the `n`th element with that key. -/
def matched (all : List A) : List K → List K → List A
  | _, [] => []
  | earlier, k :: keys => (withKey key all k)[earlier.count k]?.toList ++ matched all (earlier ++ [k]) keys

/-- Left over is an element with as many before it of its key as there are occurrences of the key. -/
def unmatched (keys : List K) : List A → List A → List A
  | _, [] => []
  | earlier, a :: rest =>
    if (withKey key earlier (key a)).length < keys.count (key a) then unmatched keys (earlier ++ [a]) rest
    else a :: unmatched keys (earlier ++ [a]) rest

section Matched

variable {key}

theorem withKey_concat (earlier : List A) (a : A) (k : K) :
    (withKey key (earlier ++ [a]) k).length = (withKey key earlier k).length + if key a = k then 1 else 0 := by
  by_cases same : key a = k <;> simp [withKey, same]

theorem withKey_eraseP {all : List A} {k : K} {a : A} (found : (all.find? fun a => key a = k) = some a) (x : K) :
    withKey key all x =
      if x = k then a :: withKey key (all.eraseP fun a => key a = k) x
      else withKey key (all.eraseP fun a => key a = k) x := by
  obtain ⟨same, front, back, rfl, apart⟩ := List.find?_eq_some_iff_append.1 found
  have same : key a = k := by simpa using same
  have passed (other : A) (inFront : other ∈ front) : ¬ decide (key other = k) = true := by
    simpa using apart other inFront
  rw [List.eraseP_append_right _ passed, List.eraseP_cons_of_pos (by simpa using same)]
  subst same
  split
  next equal =>
    subst equal
    have nothing : front.filter (fun other => key other = key a) = [] :=
      List.filter_eq_nil_iff.2 passed
    simp [withKey, nothing]
  next differs => simp [withKey, Ne.symm differs]

theorem withKey_absent {all : List A} {k : K} (absent : (all.find? fun a => key a = k) = none) :
    withKey key all k = [] :=
  List.filter_eq_nil_iff.2 (List.find?_eq_none.1 absent)

theorem matched_eraseP {all : List A} {k : K} {a : A} (found : (all.find? fun a => key a = k) = some a)
    (earlier keys : List K) :
    matched key all (k :: earlier) keys = matched key (all.eraseP fun a => key a = k) earlier keys := by
  induction keys generalizing earlier with
  | nil => rfl
  | cons x keys ih =>
    rw [matched, matched, List.cons_append, ih]
    congr 2
    rw [withKey_eraseP found x, List.count_cons]
    by_cases same : x = k
    · simp [same]
    · simp [same, Ne.symm same]

theorem matched_absent {all : List A} {k : K} (absent : (all.find? fun a => key a = k) = none)
    (earlier keys : List K) : matched key all (k :: earlier) keys = matched key all earlier keys := by
  induction keys generalizing earlier with
  | nil => rfl
  | cons x keys ih =>
    rw [matched, matched, List.cons_append, ih]
    congr 2
    by_cases same : x = k
    · simp [same, withKey_absent absent]
    · simp [Ne.symm same]

end Matched

section Unmatched

variable {key}

/-- How many elements with key `k` are still to be taken. -/
def wanted (key : A → K) (keys : List K) (earlier : List A) (k : K) : Nat :=
  keys.count k - (withKey key earlier k).length

theorem wanted_concat (keys : List K) (earlier : List A) (a : A) (k : K) :
    wanted key keys (earlier ++ [a]) k = wanted key keys earlier k - if key a = k then 1 else 0 := by
  rw [wanted, wanted, withKey_concat]
  omega

theorem unmatched_cons (keys : List K) (earlier : List A) (a : A) (rest : List A) :
    unmatched key keys earlier (a :: rest) =
      if 0 < wanted key keys earlier (key a) then unmatched key keys (earlier ++ [a]) rest
      else a :: unmatched key keys (earlier ++ [a]) rest := by
  simp only [unmatched, wanted, Nat.sub_pos_iff_lt]

theorem unmatched_congr {keys others : List K} {earlier before : List A}
    (same : ∀ k, wanted key keys earlier k = wanted key others before k) (rest : List A) :
    unmatched key keys earlier rest = unmatched key others before rest := by
  induction rest generalizing earlier before with
  | nil => rfl
  | cons a rest ih =>
    have next : unmatched key keys (earlier ++ [a]) rest = unmatched key others (before ++ [a]) rest := by
      apply ih
      intro k
      rw [wanted_concat, wanted_concat, same]
    rw [unmatched_cons, unmatched_cons, same, next]

theorem unmatched_eraseP {all : List A} {k : K} {keys : List K} {a : A}
    (found : (all.find? fun a => key a = k) = some a) (earlier before : List A)
    (one : ∀ x, wanted key (k :: keys) earlier x = wanted key keys before x + if x = k then 1 else 0) :
    unmatched key (k :: keys) earlier all = unmatched key keys before (all.eraseP fun a => key a = k) := by
  induction all generalizing earlier before with
  | nil => cases found
  | cons first rest ih =>
    by_cases same : key first = k
    · rw [List.eraseP_cons_of_pos (by simpa using same), unmatched_cons, one, if_pos same, if_pos (Nat.succ_pos _)]
      apply unmatched_congr
      intro x
      rw [wanted_concat, one, same]
      by_cases equal : x = k
      · simp [equal]
      · simp [equal, Ne.symm equal]
    · have passed : ¬ decide (key first = k) = true := by simpa using same
      rw [List.find?_cons_of_neg (p := fun a => decide (key a = k)) passed] at found
      have next : unmatched key (k :: keys) (earlier ++ [first]) rest =
          unmatched key keys (before ++ [first]) (rest.eraseP fun a => key a = k) := by
        apply ih found
        intro x
        rw [wanted_concat, wanted_concat, one]
        by_cases equal : x = k
        · subst equal
          simp [same]
        · simp [equal]
      rw [List.eraseP_cons_of_neg (p := fun a => decide (key a = k)) passed, unmatched_cons, unmatched_cons, one, if_neg same, next]
      rfl

theorem unmatched_absent {all : List A} {k : K} {keys : List K}
    (absent : ∀ a ∈ all, key a ≠ k) (earlier before : List A)
    (same : ∀ x, x ≠ k → wanted key (k :: keys) earlier x = wanted key keys before x) :
    unmatched key (k :: keys) earlier all = unmatched key keys before all := by
  induction all generalizing earlier before with
  | nil => rfl
  | cons first rest ih =>
    obtain ⟨differs, absent⟩ := List.forall_mem_cons.1 absent
    have next : unmatched key (k :: keys) (earlier ++ [first]) rest =
        unmatched key keys (before ++ [first]) rest := by
      apply ih absent
      intro x other
      rw [wanted_concat, wanted_concat, same x other]
    rw [unmatched_cons, unmatched_cons, same _ differs, next]

theorem unmatched_nil (earlier all : List A) : unmatched key [] earlier all = all := by
  induction all generalizing earlier with
  | nil => rfl
  | cons a rest ih => simp [unmatched, ih]

end Unmatched

theorem takeEach_eq (keys : List K) (all : List A) :
    takeEach key keys all = matched key all [] keys ++ unmatched key keys [] all := by
  induction keys generalizing all with
  | nil => simp [takeEach, matched, unmatched_nil]
  | cons k keys ih =>
    rw [takeEach, matched, List.nil_append]
    cases found : all.find? fun a => key a = k with
    | some a =>
      have first : (withKey key all k)[([] : List K).count k]? = some a := by
        simp [withKey_eraseP found k]
      have rest : unmatched key (k :: keys) [] all = unmatched key keys [] (all.eraseP fun a => key a = k) := by
        apply unmatched_eraseP found
        intro x
        by_cases same : x = k
        · simp [wanted, withKey, same]
        · simp [wanted, withKey, same, Ne.symm same]
      rw [first, matched_eraseP found, rest]
      exact congrArg (a :: ·) (ih _)
    | none =>
      have rest : unmatched key (k :: keys) [] all = unmatched key keys [] all := by
        apply unmatched_absent (by simpa using found)
        intro x other
        simp [wanted, withKey, Ne.symm other]
      rw [withKey_absent found, matched_absent found, rest]
      exact ih all

end Matching
