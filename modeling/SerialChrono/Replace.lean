import SerialChrono.Library.CText
import SerialChrono.Library.Replacement

/-!
# Replacing a text (`str_replace`)

`str_replace` looks for the text to replace from the beginning of the string it has made so far.
It therefore finds what a replacement brings with it, and what a replacement and its neighbours
make together.  `strReplace_once_iff` says when it nevertheless replaces every occurrence in the
original once, and `strReplace_letter` that the quotes around the unique id are removed as they
should be.
-/

namespace SerialChrono

open CText Replacement

/-! ## The loop -/

/-- The loop of `str_replace`, at most `fuel` times round. -/
def strReplaceLoop (substr replacement : CString) : (fuel : ℕ) → (newstr : CString) →
    Option CString
  | fuel, newstr =>
    match strstrAt newstr substr with
    | none => some newstr
    | some tok =>
      match fuel with
      | 0 => none
      | fuel + 1 =>
        -- compose new string, and repeat loop for next search
        strReplaceLoop substr replacement fuel
          (newstr.take tok ++ replacement ++ newstr.drop (tok + substr.length))

/-- `str_replace`. -/
def strReplace (string substr replacement : CString) (fuel : ℕ) : Option CString :=
  strReplaceLoop substr replacement fuel string

/-! ## What it is for -/

/-- The leftmost occurrences that do not overlap, replaced from left to right. -/
def replaceRest (substr replacement : CString) : (fuel : ℕ) → (rest : CString) → CString
  | 0, rest => rest
  | fuel + 1, rest =>
    match strstrAt rest substr with
    | none => rest
    | some tok =>
      rest.take tok ++ replacement ++
        replaceRest substr replacement fuel (rest.drop (tok + substr.length))

def replaceAll (string substr replacement : CString) : CString :=
  replaceRest substr replacement string.length string

/-- `str_replace` terminates and replaces each occurrence in `string` once. -/
def ReplacesOnce (string substr replacement : CString) : Prop :=
  ∃ fuel, strReplace string substr replacement fuel =
    some (replaceAll string substr replacement)

/-! ## Both as replacements of words -/

lemma strstrAt_eq_none_iff {haystack needle : CString} :
    strstrAt haystack needle = none ↔ ¬ needle <:+: haystack := by
  induction haystack with
  | nil => simp [strstrAt]
  | cons c haystack ih =>
    rw [List.infix_cons_iff, not_or]
    by_cases hp : needle <+: c :: haystack
    · rw [strstrAt_eq_zero hp]
      simp [hp]
    · rw [strstrAt_cons hp, Option.map_eq_none_iff, ih]
      simp [hp]

/-- `strstr` finds the first occurrence. -/
lemma firstAt_of_strstrAt {haystack needle : CString} {tok : ℕ}
    (h : strstrAt haystack needle = some tok) :
    FirstAt needle haystack (haystack.take tok) (haystack.drop (tok + needle.length)) := by
  induction haystack generalizing tok with
  | nil =>
    have hneedle : needle = [] := by
      by_contra hne
      rw [strstrAt_eq_none_iff.mpr (by simpa using hne)] at h
      cases h
    subst hneedle
    exact ⟨by simp, fun _ _ _ => by simp⟩
  | cons c haystack ih =>
    by_cases hp : needle <+: c :: haystack
    · rw [strstrAt_eq_zero hp] at h
      cases h
      refine ⟨?_, fun _ _ _ => Nat.zero_le _⟩
      rw [List.take_zero, Nat.zero_add, List.nil_append]
      exact List.prefix_append_drop hp
    · rw [strstrAt_cons hp] at h
      obtain ⟨tok, htok, rfl⟩ := Option.map_eq_some_iff.mp h
      obtain ⟨heq, hfirst⟩ := ih htok
      refine ⟨?_, ?_⟩
      · rw [Nat.add_right_comm, List.take_succ_cons, List.drop_succ_cons, List.cons_append,
          List.cons_append, ← heq]
      · intro before' after' heq'
        cases before' with
        | nil => exact absurd ⟨after', heq'.symm⟩ hp
        | cons d before' =>
          have := hfirst before' after' (List.cons.inj heq').2
          simp only [List.take_succ_cons, List.length_cons]
          omega

lemma replaced_replaceRest {substr : CString} (hsubstr : substr ≠ []) (replacement : CString)
    {fuel : ℕ} {rest : CString} (hfuel : rest.length ≤ fuel) :
    Replaced substr replacement rest (replaceRest substr replacement fuel rest) := by
  induction fuel generalizing rest with
  | zero =>
    obtain rfl := List.length_eq_zero_iff.mp (Nat.le_zero.mp hfuel)
    exact .last (by simpa using hsubstr)
  | succ fuel ih =>
    unfold replaceRest
    cases htok : strstrAt rest substr with
    | none => exact .last (strstrAt_eq_none_iff.mp htok)
    | some tok =>
      refine .next (firstAt_of_strstrAt htok) (ih ?_)
      have hlength := List.length_pos_iff.mpr hsubstr
      rw [List.length_drop]
      omega

/-- The loop makes passes until nothing is left to replace. -/
lemma ends_of_strReplaceLoop {substr replacement newstr result : CString} {fuel : ℕ}
    (h : strReplaceLoop substr replacement fuel newstr = some result) :
    Ends substr replacement newstr result := by
  induction fuel generalizing newstr with
  | zero =>
    unfold strReplaceLoop at h
    cases htok : strstrAt newstr substr with
    | none =>
      rw [htok] at h
      cases h
      exact ⟨.refl, strstrAt_eq_none_iff.mp htok⟩
    | some tok =>
      rw [htok] at h
      cases h
  | succ fuel ih =>
    unfold strReplaceLoop at h
    cases htok : strstrAt newstr substr with
    | none =>
      rw [htok] at h
      cases h
      exact ⟨.refl, strstrAt_eq_none_iff.mp htok⟩
    | some tok =>
      rw [htok] at h
      obtain ⟨hpasses, hnone⟩ := ih h
      exact ⟨hpasses.head ⟨_, _, firstAt_of_strstrAt htok, rfl⟩, hnone⟩

lemma strReplaceLoop_of_ends {substr replacement newstr result : CString}
    (h : Ends substr replacement newstr result) :
    ∃ fuel, strReplaceLoop substr replacement fuel newstr = some result := by
  obtain ⟨hpasses, hnone⟩ := h
  induction hpasses using Relation.ReflTransGen.head_induction_on with
  | refl =>
    refine ⟨0, ?_⟩
    unfold strReplaceLoop
    rw [strstrAt_eq_none_iff.mpr hnone]
  | @head newstr next hpass _ ih =>
    obtain ⟨fuel, hloop⟩ := ih
    refine ⟨fuel + 1, ?_⟩
    unfold strReplaceLoop
    cases htok : strstrAt newstr substr with
    | none => exact absurd hpass.infix (strstrAt_eq_none_iff.mp htok)
    | some tok =>
      have hsame := hpass.unique ⟨_, _, firstAt_of_strstrAt htok, rfl⟩
      rw [hsame] at hloop
      exact hloop

lemma replacesOnce_iff_ends (string substr replacement : CString) :
    ReplacesOnce string substr replacement ↔
      Ends substr replacement string (replaceAll string substr replacement) :=
  ⟨fun ⟨_, h⟩ => ends_of_strReplaceLoop h, strReplaceLoop_of_ends⟩

/-! ## When each occurrence is replaced once -/

/-- **When `str_replace` replaces each occurrence once.** It does if no occurrence ever begins in
what has been replaced so far, and, unless the replacement is a proper beginning of the text
searched for, only then. -/
theorem strReplace_once_iff (string substr replacement : CString) (hsubstr : substr ≠ []) :
    (RestOnly substr replacement string → ReplacesOnce string substr replacement) ∧
      (¬ (replacement <+: substr ∧ replacement ≠ substr) →
        (ReplacesOnce string substr replacement ↔ RestOnly substr replacement string)) := by
  have hreplaced : Replaced substr replacement string (replaceAll string substr replacement) :=
    replaced_replaceRest hsubstr replacement (Nat.le_refl string.length)
  have honly (h : RestOnly substr replacement string) :
      ReplacesOnce string substr replacement :=
    (replacesOnce_iff_ends _ _ _).mpr (h.ends hreplaced)
  refine ⟨honly, fun hproper => ⟨fun honce => ?_, honly⟩⟩
  exact ((replacesOnce_iff_ends _ _ _).mp honce).restOnly hproper hreplaced

/-- A letter that the replacement does not contain never comes back. -/
lemma restOnly_letter {letter : Char} {replacement : CString} (h : letter ∉ replacement)
    (string : CString) : RestOnly [letter] replacement string := by
  have hdone : ∀ done rest, Stage [letter] replacement string done rest → letter ∉ done := by
    intro done rest hstage
    induction hstage with
    | start => exact List.not_mem_nil
    | @next done rest before after _ hfirst ih =>
      have hbefore : letter ∉ before := by
        intro hmem
        obtain ⟨s, t, rfl⟩ := List.append_of_mem hmem
        have hlt := hfirst.first s (t ++ [letter] ++ after) (by rw [hfirst.eq]; simp)
        simp only [List.length_append, List.length_cons] at hlt
        omega
      simp [ih, hbefore, h]
  intro done rest hstage before after heq
  by_contra hearly
  -- the letter would stand in the part that is done
  have hbegins : before ++ [letter] <+: done := by
    refine List.prefix_of_prefix_length_le ?_ (List.prefix_append done rest) ?_
    · rw [heq]
      exact List.prefix_append _ _
    · rw [List.length_append, List.length_singleton]
      omega
  exact hdone done rest hstage (hbegins.subset (by simp))

/-- **A single letter.** It is replaced as it should be by anything that does not contain it; so are
the quotes around the unique id removed. -/
theorem strReplace_letter {letter : Char} {replacement : CString} (h : letter ∉ replacement)
    (string : CString) : ReplacesOnce string [letter] replacement := by
  have hreplaced := replaced_replaceRest (List.cons_ne_nil letter []) replacement
    (Nat.le_refl string.length)
  exact (replacesOnce_iff_ends _ _ _).mpr ((restOnly_letter h string).ends hreplaced)

/-- The quotes of a unique id. -/
theorem strReplace_once_iff_quotes :
    ReplacesOnce "\"aWQ=\"".toList "\"".toList [] :=
  (strReplace_once_iff "\"aWQ=\"".toList "\"".toList [] (List.cons_ne_nil _ _)).1
    (restOnly_letter List.not_mem_nil _)

/-- A replacement that contains the text searched for: the loop never ends. -/
theorem strReplace_again :
    ¬ ∀ string substr replacement : CString, substr ≠ [] →
      ReplacesOnce string substr replacement := by
  intro h
  have hends := (replacesOnce_iff_ends _ _ _).mp
    (h "a.b".toList ".".toList "..".toList (List.cons_ne_nil _ _))
  exact hends.none ⟨['a'], ['.', 'b'], rfl⟩

end SerialChrono
