import SerialChrono.Events.TinyJson

/-!
# The texts `json_create` accepts (`tiny-json.c`)

The grammar of the parser, as relations between a text and what it stands for.  It is that of JSON
with three liberties: between the values of a block there may be any number of commas, none
included, a comma may also stand before the first and behind the last, and a code point becomes
a question mark.

`Inside body o n pending` says that `body`, the text behind an opening bracket, has been read as the
block `o`, with `n` nodes; it is `pending` if the last value is a literal or a number that nothing
has ended yet.  The lemmas about `parseString`, `numValue` and `plainValue` are the cases of single
values: each accepts exactly the texts of its relation.
-/

namespace SerialChrono

open CText

namespace TinyJson

/-! ## Blanks -/

def IsBlank (c : Char) : Prop := isOneOfThem c blank = true

/-- What may stand between two values. -/
def IsBetween (c : Char) : Prop := IsBlank c ∨ c = ','

/-- `goWhile` -/
def goWhile (set : Char → Bool) (s : CString) : Option CString :=
  if s.dropWhile set = [] then none else some (s.dropWhile set)

lemma goWhile_cons (set : Char → Bool) (c : Char) (s : CString) :
    goWhile set (c :: s) = if set c then goWhile set s else some (c :: s) := by
  unfold goWhile
  rw [List.dropWhile_cons]
  cases hc : set c
  · rfl
  · rfl

lemma goBlank_eq (s : CString) : goBlank s = goWhile (isOneOfThem · blank) s := by
  induction s with
  | nil => rfl
  | cons c s ih => rw [goBlank, goWhile_cons, ih]

lemma goNum_eq (s : CString) : goNum s = goWhile Char.isDigit s := by
  induction s with
  | nil => rfl
  | cons c s ih => rw [goNum, goWhile_cons, ih]

lemma goWhile_spec {set : Char → Bool} {s rest : CString} (h : goWhile set s = some rest) :
    ∃ gap, (∀ c ∈ gap, set c = true) ∧ s = gap ++ rest ∧
      ∃ c tail, rest = c :: tail ∧ set c = false := by
  unfold goWhile at h
  split_ifs at h with hnil
  cases h
  refine ⟨s.takeWhile set, fun c => List.mem_takeWhile_imp, List.takeWhile_append_dropWhile.symm, ?_⟩
  obtain ⟨c, tail, hrest⟩ := List.exists_cons_of_ne_nil hnil
  refine ⟨c, tail, hrest, ?_⟩
  have hhead := List.head_dropWhile_not set hnil
  simpa only [hrest, List.head_cons, Bool.not_eq_true] using hhead

lemma goWhile_append {set : Char → Bool} {gap : CString} (hgap : ∀ c ∈ gap, set c = true) {c : Char}
    (hc : set c = false) (rest : CString) : goWhile set (gap ++ c :: rest) = some (c :: rest) := by
  have hdrop : (gap ++ c :: rest).dropWhile set = c :: rest := by
    rw [List.dropWhile_append_of_pos hgap, List.dropWhile_cons, hc]
    rfl
  rw [goWhile, hdrop]
  rfl

/-! ## Strings -/

/-- A text between two quotes and the string it stands for. -/
inductive StringBody : CString → CString → Prop
  | nil : StringBody [] []
  | plain {c : Char} {body s : CString} :
      ¬ c < ' ' → c ≠ '"' → c ≠ '\\' → StringBody body s → StringBody (c :: body) (c :: s)
  | escape {c esc : Char} {body s : CString} :
      getEscape c = some esc → StringBody body s → StringBody ('\\' :: c :: body) (esc :: s)
  | codePoint {c₁ c₂ c₃ c₄ : Char} {body s : CString} :
      (isXDigit c₁ && isXDigit c₂ && isXDigit c₃ && isXDigit c₄) = true → StringBody body s →
        StringBody ('\\' :: 'u' :: c₁ :: c₂ :: c₃ :: c₄ :: body) ('?' :: s)

lemma stringBody_of_parseString {str : CString} {r : CString × CString}
    (h : parseString str = some r) : ∃ body, StringBody body r.1 ∧ str = body ++ '"' :: r.2 := by
  fun_induction parseString str generalizing r with
  | case1 | case2 | case5 | case6 | case8 => cases h
  | case3 =>
    cases h
    exact ⟨[], .nil, rfl⟩
  | case4 c₁ c₂ c₃ c₄ str hxdigit hctl hquote ih =>
    obtain ⟨r', hr', rfl⟩ := Option.map_eq_some_iff.mp h
    obtain ⟨body, hbody, rfl⟩ := ih hr'
    exact ⟨_, .codePoint hxdigit hbody, rfl⟩
  | case7 c str hu esc hesc hctl hquote ih =>
    obtain ⟨r', hr', rfl⟩ := Option.map_eq_some_iff.mp h
    obtain ⟨body, hbody, rfl⟩ := ih hr'
    exact ⟨_, .escape hesc hbody, rfl⟩
  | case9 c str hctl hquote hescape ih =>
    obtain ⟨r', hr', rfl⟩ := Option.map_eq_some_iff.mp h
    obtain ⟨body, hbody, rfl⟩ := ih hr'
    exact ⟨_, .plain hctl hquote hescape hbody, rfl⟩

lemma StringBody.parseString {body s : CString} (h : StringBody body s) (rest : CString) :
    TinyJson.parseString (body ++ '"' :: rest) = some (s, rest) := by
  induction h with
  | nil =>
    rw [List.nil_append, TinyJson.parseString.eq_def]
    dsimp only
    rw [if_neg (by decide), if_pos rfl]
  | plain hctl hquote hescape _ ih =>
    rw [List.cons_append, TinyJson.parseString.eq_def]
    dsimp only
    rw [if_neg hctl, if_neg hquote, if_neg hescape, ih]
    rfl
  | @escape c esc body s hesc _ ih =>
    have hu : c ≠ 'u' := by
      rintro rfl
      cases hesc
    rw [List.cons_append, List.cons_append, TinyJson.parseString.eq_def]
    dsimp only
    rw [if_neg (by decide), if_neg (by decide), if_pos rfl]
    split
    · next heq => exact absurd (List.cons.inj heq).1 hu
    · next heq =>
      obtain ⟨rfl, rfl⟩ := List.cons.inj heq
      rw [hesc]
      simp only [ih, Option.map_some]
    · next heq => cases heq
  | codePoint hxdigit _ ih => simp [TinyJson.parseString, hxdigit, ih]

/-! ## Numbers -/

structure IsDigits (s : CString) : Prop where
  ne_nil : s ≠ []
  digits : ∀ c ∈ s, c.isDigit = true

/-- The digits before the point: there is no zero before others. -/
structure IsInteger (s : CString) : Prop extends IsDigits s where
  zero : s.head? = some '0' → s = ['0']

inductive Fraction : CString → Prop
  | none : Fraction []
  | point {ds : CString} : IsDigits ds → Fraction ('.' :: ds)

inductive Exponent : CString → Prop
  | none : Exponent []
  | power {e : Char} {sign ds : CString} :
      e = 'e' ∨ e = 'E' → sign ∈ [[], ['-'], ['+']] → IsDigits ds → Exponent (e :: (sign ++ ds))

/-- A number.  One without fraction and exponent must be a `long` of 64 bits. -/
inductive IsNumber : CString → Prop
  | intro {sign int frac exp : CString} :
      sign ∈ [[], ['-']] → IsInteger int → Fraction frac → Exponent exp →
      (frac = [] → exp = [] → fitsInt64 (sign ++ int) = true) →
      IsNumber (sign ++ (int ++ (frac ++ exp)))

/-- `if ( !isdigit(*ptr) ) return 0;`, and the digits. -/
lemma digits_spec {ptr rest : CString} (hptr : isDigitAt ptr = true)
    (h : goNum ptr.tail = some rest) : ∃ ds, IsDigits ds ∧ ptr = ds ++ rest := by
  cases ptr with
  | nil => cases hptr
  | cons c ptr =>
    rw [goNum_eq] at h
    obtain ⟨ds, hds, hsplit, -⟩ := goWhile_spec h
    refine ⟨c :: ds, ⟨List.cons_ne_nil _ _, List.forall_mem_cons.mpr ⟨hptr, hds⟩⟩, ?_⟩
    rw [List.cons_append, ← hsplit]
    rfl

lemma IsDigits.read {ds : CString} (h : IsDigits ds) {c : Char} (hc : c.isDigit = false)
    (rest : CString) : isDigitAt (ds ++ c :: rest) = true ∧
      goNum (ds ++ c :: rest).tail = some (c :: rest) := by
  cases ds with
  | nil => exact absurd rfl h.ne_nil
  | cons d ds =>
    obtain ⟨hd, hds⟩ := List.forall_mem_cons.mp h.digits
    refine ⟨hd, ?_⟩
    rw [List.cons_append, List.tail_cons, goNum_eq]
    exact goWhile_append hds hc rest

/-- The part before the point, behind the sign. -/
def unsignedPart : CString → Option CString
  | [] => none
  | c :: rest =>
    if !c.isDigit then none
    else if c ≠ '0' then goNum (c :: rest)
    else if isDigitAt rest then none
    else some rest

lemma intPart_of_ne {ptr : CString} (h : ∀ c ∈ ptr.head?, c ≠ '-') :
    intPart ptr = unsignedPart ptr := by
  cases ptr with
  | nil => rfl
  | cons c ptr =>
    have hc : c ≠ '-' := h c rfl
    unfold intPart
    split
    · next heq => exact absurd (List.cons.inj heq).1 hc
    · rfl

lemma unsignedPart_spec {ptr rest : CString} (h : unsignedPart ptr = some rest) :
    ∃ int, IsInteger int ∧ ptr = int ++ rest := by
  cases ptr with
  | nil => cases h
  | cons c ptr =>
    rw [unsignedPart] at h
    split_ifs at h with hdigit hzero hdouble
    · have hc : c.isDigit = true := by simpa using hdigit
      rw [goNum, if_pos hc] at h
      have hat : isDigitAt (c :: ptr) = true := hc
      obtain ⟨ds, hds, hsplit⟩ := digits_spec hat h
      refine ⟨ds, ⟨hds, fun hhead => ?_⟩, hsplit⟩
      cases ds with
      | nil => exact absurd rfl hds.ne_nil
      | cons d ds =>
        have hd : d = '0' := Option.some.inj hhead
        exact absurd ((List.cons.inj hsplit).1.trans hd) hzero
    · cases h
      have hc : c = '0' := by simpa using hzero
      subst hc
      exact ⟨['0'], ⟨⟨by decide, List.forall_mem_singleton.mpr (by decide)⟩, fun _ => rfl⟩, rfl⟩

lemma IsInteger.read {int : CString} (h : IsInteger int) {c : Char} (hc : c.isDigit = false)
    (rest : CString) : unsignedPart (int ++ c :: rest) = some (c :: rest) := by
  have hread := h.toIsDigits.read hc rest
  cases int with
  | nil => exact absurd rfl h.ne_nil
  | cons d ds =>
    have hd : d.isDigit = true := h.digits d List.mem_cons_self
    rw [List.cons_append, unsignedPart]
    by_cases hzero : d = '0'
    · subst hzero
      have hnil : ds = [] := (List.cons.inj (h.zero rfl)).2
      subst hnil
      simp [isDigitAt, hc]
    · rw [if_neg (by simp [hd]), if_pos hzero, goNum, if_pos hd]
      exact hread.2

lemma pointPart_spec {ptr : CString} {r : CString × Bool} (h : pointPart ptr = some r) :
    ∃ frac, Fraction frac ∧ ptr = frac ++ r.1 ∧ r.2 = frac.isEmpty := by
  unfold pointPart at h
  split at h
  · obtain ⟨rest, hrest, rfl⟩ := Option.map_eq_some_iff.mp h
    unfold fraqValue at hrest
    split_ifs at hrest with hdigit
    obtain ⟨ds, hds, rfl⟩ := digits_spec hdigit hrest
    exact ⟨'.' :: ds, .point hds, rfl, rfl⟩
  · cases h
    exact ⟨[], .none, rfl, rfl⟩

lemma Fraction.read {frac : CString} (h : Fraction frac) {c : Char} (hc : c.isDigit = false)
    (hpoint : c ≠ '.') (rest : CString) :
    pointPart (frac ++ c :: rest) = some (c :: rest, frac.isEmpty) := by
  cases h with
  | none =>
    unfold pointPart
    split
    · next heq => exact absurd (List.cons.inj heq).1 hpoint
    · rfl
  | point hds =>
    obtain ⟨hdigit, hread⟩ := hds.read hc rest
    rw [List.cons_append, pointPart, fraqValue, if_pos hdigit, hread]
    rfl

lemma exponentPart_spec {ptr : CString} {integer : Bool} {r : CString × Bool}
    (h : exponentPart ptr integer = some r) :
    ∃ exp, Exponent exp ∧ ptr = exp ++ r.1 ∧ r.2 = (integer && exp.isEmpty) := by
  have hpower : ∀ {e : Char} {ptr : CString}, e = 'e' ∨ e = 'E' →
      (expValue ptr).map (fun ptr => (ptr, false)) = some r →
      ∃ exp, Exponent exp ∧ e :: ptr = exp ++ r.1 ∧ r.2 = (integer && exp.isEmpty) := by
    intro e ptr he h
    obtain ⟨rest, hrest, rfl⟩ := Option.map_eq_some_iff.mp h
    have hsign : ∃ sign tail, sign ∈ [[], ['-'], ['+']] ∧ ptr = sign ++ tail ∧
        fraqValue tail = some rest := by
      unfold expValue at hrest
      split at hrest
      · exact ⟨['-'], _, by simp, rfl, hrest⟩
      · exact ⟨['+'], _, by simp, rfl, hrest⟩
      · exact ⟨[], _, by simp, rfl, hrest⟩
    obtain ⟨sign, tail, hsign, rfl, htail⟩ := hsign
    unfold fraqValue at htail
    split_ifs at htail with hdigit
    obtain ⟨ds, hds, rfl⟩ := digits_spec hdigit htail
    exact ⟨e :: (sign ++ ds), .power he hsign hds, by simp, by simp⟩
  unfold exponentPart at h
  split at h
  · exact hpower (.inl rfl) h
  · exact hpower (.inr rfl) h
  · cases h
    exact ⟨[], .none, rfl, by simp⟩

lemma Exponent.read {exp : CString} (h : Exponent exp) {c : Char} (hc : c.isDigit = false)
    (he : c ≠ 'e' ∧ c ≠ 'E') (rest : CString) (integer : Bool) :
    exponentPart (exp ++ c :: rest) integer = some (c :: rest, integer && exp.isEmpty) := by
  cases h with
  | none =>
    unfold exponentPart
    split
    · next heq => exact absurd (List.cons.inj heq).1 he.1
    · next heq => exact absurd (List.cons.inj heq).1 he.2
    · simp
  | @power e sign ds he' hsign hds =>
    obtain ⟨hdigit, hread⟩ := hds.read hc rest
    have hexp : expValue (sign ++ (ds ++ c :: rest)) = some (c :: rest) := by
      have hfraq : fraqValue (ds ++ c :: rest) = some (c :: rest) := by
        rw [fraqValue, if_pos hdigit, hread]
      simp only [List.mem_cons, List.not_mem_nil, or_false] at hsign
      rcases hsign with rfl | rfl | rfl
      · cases ds with
        | nil => exact absurd rfl hds.ne_nil
        | cons d ds =>
          have hd : d.isDigit = true := hds.digits d List.mem_cons_self
          rw [List.nil_append]
          unfold expValue
          split
          · next heq =>
            cases (List.cons.inj heq).1
            cases hd
          · next heq =>
            cases (List.cons.inj heq).1
            cases hd
          · exact hfraq
      · exact hfraq
      · exact hfraq
    rcases he' with rfl | rfl <;>
      simp [exponentPart, hexp]

/-- The characters that end a literal or a number are not part of one. -/
lemma not_number_of_end {c : Char} {rest : CString} (h : isEndOfPrimitive (c :: rest) = true) :
    c.isDigit = false ∧ c ≠ '.' ∧ c ≠ 'e' ∧ c ≠ 'E' := by
  have hmem : c ∈ ",\x7d] \n\r\t\x0c".toList := by
    simp only [isEndOfPrimitive, isOneOfThem, blank, endofblock, Bool.or_eq_true, beq_iff_eq,
      List.contains_iff_mem] at h
    rcases h with (rfl | h) | h
    · exact List.mem_cons_self
    · exact List.mem_cons_of_mem _ (List.mem_cons_of_mem _ (List.mem_cons_of_mem _ h))
    · exact List.mem_cons_of_mem _ ((List.prefix_append _ " \n\r\t\x0c".toList).subset h)
  have hall : ",\x7d] \n\r\t\x0c".toList.all
      (fun c => c.isDigit = false ∧ c ≠ '.' ∧ c ≠ 'e' ∧ c ≠ 'E') = true := by decide
  exact of_decide_eq_true (List.all_eq_true.mp hall c hmem)

/-- A value that begins with no quote has its first character among these. -/
def StartsPrimitive (c : Char) : Prop := c.isDigit = true ∨ c ∈ ['-', 't', 'f', 'n']

lemma IsInteger.head {int : CString} (h : IsInteger int) :
    ∃ d ds, int = d :: ds ∧ d.isDigit = true := by
  obtain ⟨d, ds, rfl⟩ := List.exists_cons_of_ne_nil h.ne_nil
  exact ⟨d, ds, rfl, h.digits d List.mem_cons_self⟩

lemma isNumber_of_numValue {ptr : CString} {r : CString × CString} (h : numValue ptr = some r) :
    ∃ rest, IsNumber r.1 ∧ ptr = r.1 ++ rest ∧ isEndOfPrimitive rest = true ∧
      r.2 = setToNull rest := by
  obtain ⟨mid, hint, hnumber⟩ := Option.bind_eq_some_iff.mp h
  obtain ⟨⟨mid', integer⟩, hpoint, hnumber'⟩ := Option.bind_eq_some_iff.mp hnumber
  obtain ⟨⟨rest, integer'⟩, hpower, hresult⟩ := Option.bind_eq_some_iff.mp hnumber'
  obtain ⟨frac, hfrac, rfl, hinteger⟩ := pointPart_spec hpoint
  obtain ⟨exp, hexp, rfl, hinteger'⟩ := exponentPart_spec hpower
  have hsign : ∃ sign tail, sign ∈ [[], ['-']] ∧ ptr = sign ++ tail ∧
      unsignedPart tail = some (frac ++ (exp ++ rest)) := by
    by_cases hminus : ∃ tail, ptr = '-' :: tail
    · obtain ⟨tail, rfl⟩ := hminus
      exact ⟨['-'], tail, by simp, rfl, hint⟩
    · refine ⟨[], ptr, by simp, rfl, ?_⟩
      rw [← intPart_of_ne]
      · exact hint
      · rintro c hc rfl
        obtain ⟨tail, rfl⟩ : ∃ tail, ptr = '-' :: tail := by
          cases ptr with
          | nil => cases hc
          | cons d tail => exact ⟨tail, by rw [Option.some.inj hc]⟩
        exact hminus ⟨tail, rfl⟩
  obtain ⟨sign, tail, hsign, rfl, hunsigned⟩ := hsign
  obtain ⟨int, hint', rfl⟩ := unsignedPart_spec hunsigned
  have htake : (sign ++ (int ++ (frac ++ (exp ++ rest)))).take
      ((sign ++ (int ++ (frac ++ (exp ++ rest)))).length - rest.length) =
        sign ++ (int ++ (frac ++ exp)) := by
    have hassoc : sign ++ (int ++ (frac ++ (exp ++ rest))) =
        (sign ++ (int ++ (frac ++ exp))) ++ rest := by simp only [List.append_assoc]
    rw [hassoc, List.length_append, Nat.add_sub_cancel, List.take_left]
  dsimp only at hresult hinteger hinteger'
  rw [htake] at hresult
  split_ifs at hresult with hend
  cases hresult
  rw [Bool.and_eq_true] at hend
  refine ⟨rest, .intro hsign hint' hfrac hexp fun hf he => ?_, by simp only [List.append_assoc],
    hend.1, rfl⟩
  subst hf he
  simpa [hinteger', hinteger] using hend.2

lemma IsNumber.read {text : CString} (h : IsNumber text) {rest : CString}
    (hend : isEndOfPrimitive rest = true) :
    numValue (text ++ rest) = some (text, setToNull rest) := by
  cases rest with
  | nil => cases hend
  | cons c rest =>
    obtain ⟨hdigit, hpoint, he⟩ := not_number_of_end hend
    obtain @⟨sign, int, frac, exp, hsign, hint, hfrac, hexp, hfits⟩ := h
    -- what is behind the digits before the point begins with no digit
    have hbehind : ∃ d tail, frac ++ (exp ++ c :: rest) = d :: tail ∧ d.isDigit = false := by
      cases hfrac with
      | point => exact ⟨'.', _, rfl, by decide⟩
      | none =>
        cases hexp with
        | none => exact ⟨c, rest, rfl, hdigit⟩
        | @power e sign ds he _ _ => exact ⟨e, _, rfl, by rcases he with rfl | rfl <;> decide⟩
    have hpower : ∃ d tail, exp ++ c :: rest = d :: tail ∧ d.isDigit = false ∧ d ≠ '.' := by
      cases hexp with
      | none => exact ⟨c, rest, rfl, hdigit, hpoint⟩
      | @power e sign ds he _ _ => exact ⟨e, _, rfl, by rcases he with rfl | rfl <;> decide⟩
    have hintPart : intPart (sign ++ (int ++ (frac ++ (exp ++ c :: rest)))) =
        some (frac ++ (exp ++ c :: rest)) := by
      obtain ⟨d, tail, hd, hdigit⟩ := hbehind
      have hunsigned := hint.read hdigit tail
      rw [← hd] at hunsigned
      simp only [List.mem_cons, List.not_mem_nil, or_false] at hsign
      rcases hsign with rfl | rfl
      · rw [List.nil_append, intPart_of_ne, hunsigned]
        obtain ⟨d, ds, rfl, hd⟩ := hint.head
        rintro c' hc' rfl
        cases hc'
        cases hd
      · exact hunsigned
    have hpointPart : pointPart (frac ++ (exp ++ c :: rest)) =
        some (exp ++ c :: rest, frac.isEmpty) := by
      obtain ⟨d, tail, hd, hdigit, hpoint⟩ := hpower
      rw [hd]
      exact hfrac.read hdigit hpoint tail
    have htext : (sign ++ (int ++ (frac ++ exp)) ++ c :: rest) =
        sign ++ (int ++ (frac ++ (exp ++ c :: rest))) := by simp only [List.append_assoc]
    have htake : (sign ++ (int ++ (frac ++ (exp ++ c :: rest)))).take
        ((sign ++ (int ++ (frac ++ (exp ++ c :: rest)))).length - (c :: rest).length) =
          sign ++ (int ++ (frac ++ exp)) := by
      rw [← htext, List.length_append, Nat.add_sub_cancel, List.take_left]
    have hroom : (!(frac.isEmpty && exp.isEmpty) || fitsInt64 (sign ++ (int ++ (frac ++ exp)))) =
        true := by
      by_cases hempty : frac = [] ∧ exp = []
      · obtain ⟨rfl, rfl⟩ := hempty
        simpa using hfits rfl rfl
      · simp only [Bool.or_eq_true, Bool.not_eq_true', Bool.and_eq_false_iff,
          List.isEmpty_eq_false_iff]
        left
        by_cases hf : frac = []
        · exact .inr fun he => hempty ⟨hf, he⟩
        · exact .inl hf
    rw [htext]
    simp only [numValue, hintPart, hpointPart, hexp.read hdigit he, Option.bind_eq_bind,
      Option.bind_some, htake, hend, hroom, Bool.and_self, if_true]

/-! ## Single values -/

/-- A literal or a number. -/
inductive Primitive : CString → Prop
  | literal {text : CString} :
      text ∈ ["true".toList, "false".toList, "null".toList] → Primitive text
  | number {text : CString} : IsNumber text → Primitive text

lemma checkStr_append (str rest : CString) : checkStr (str ++ rest) str = some rest := by
  induction str with
  | nil => cases rest <;> rfl
  | cons c str ih => rw [List.cons_append, checkStr, if_pos rfl, ih]

lemma primitiveValue_spec {ptr value : CString} {r : CString × CString}
    (h : primitiveValue ptr value = some r) :
    ∃ rest, r.1 = value ∧ ptr = value ++ rest ∧ isEndOfPrimitive rest = true ∧
      r.2 = setToNull rest := by
  unfold primitiveValue at h
  split at h
  · cases h
  · next rest hrest =>
    split_ifs at h with hend
    cases h
    exact ⟨rest, rfl, checkStr_suffix hrest, hend, rfl⟩

lemma primitiveValue_append (value : CString) {rest : CString}
    (hend : isEndOfPrimitive rest = true) :
    primitiveValue (value ++ rest) value = some (value, setToNull rest) := by
  rw [primitiveValue, checkStr_append]
  exact if_pos hend

/-- A value that is neither object nor array is a string, or a literal or number that is ended. -/
lemma plainValue_spec {ptr : CString} {r : CString × CString} (h : plainValue ptr = some r) :
    (∃ body, StringBody body r.1 ∧ ptr = '"' :: (body ++ '"' :: r.2)) ∨
      ∃ rest, Primitive r.1 ∧ ptr = r.1 ++ rest ∧ isEndOfPrimitive rest = true ∧
        r.2 = setToNull rest := by
  have hliteral : ∀ {ptr value : CString},
      value ∈ ["true".toList, "false".toList, "null".toList] → primitiveValue ptr value = some r →
      ∃ rest, Primitive r.1 ∧ ptr = r.1 ++ rest ∧ isEndOfPrimitive rest = true ∧
        r.2 = setToNull rest := by
    intro ptr value hvalue h
    obtain ⟨rest, rfl, hptr, hend⟩ := primitiveValue_spec h
    exact ⟨rest, .literal hvalue, hptr, hend⟩
  unfold plainValue at h
  split at h
  · obtain ⟨body, hbody, hstr⟩ := stringBody_of_parseString h
    exact .inl ⟨body, hbody, congrArg (List.cons '"') hstr⟩
  · exact .inr (hliteral (by simp) h)
  · exact .inr (hliteral (by simp) h)
  · exact .inr (hliteral (by simp) h)
  · obtain ⟨rest, hnumber, hptr⟩ := isNumber_of_numValue h
    exact .inr ⟨rest, .number hnumber, hptr⟩

lemma plainValue_string {body s : CString} (h : StringBody body s) (rest : CString) :
    plainValue ('"' :: (body ++ '"' :: rest)) = some (s, rest) :=
  h.parseString rest

lemma Primitive.head {text : CString} (h : Primitive text) :
    ∃ c tail, text = c :: tail ∧ StartsPrimitive c := by
  cases h with
  | literal h =>
    simp only [List.mem_cons, List.not_mem_nil, or_false] at h
    rcases h with rfl | rfl | rfl <;> exact ⟨_, _, rfl, .inr (by decide)⟩
  | number h =>
    obtain @⟨sign, int, frac, exp, hsign, hint, -, -, -⟩ := h
    obtain ⟨d, ds, rfl, hd⟩ := hint.head
    simp only [List.mem_cons, List.not_mem_nil, or_false] at hsign
    rcases hsign with rfl | rfl
    · exact ⟨d, _, rfl, .inl hd⟩
    · exact ⟨'-', _, rfl, .inr (by decide)⟩

lemma Primitive.read {text : CString} (h : Primitive text) {rest : CString}
    (hend : isEndOfPrimitive rest = true) :
    plainValue (text ++ rest) = some (text, setToNull rest) := by
  cases h with
  | literal h =>
    simp only [List.mem_cons, List.not_mem_nil, or_false] at h
    rcases h with rfl | rfl | rfl <;> exact primitiveValue_append _ hend
  | number h =>
    have hread := h.read hend
    obtain @⟨sign, int, frac, exp, hsign, hint, hfrac, hexp, hfits⟩ := h
    have hhead : ∃ c tail, sign ++ (int ++ (frac ++ exp)) ++ rest = c :: tail ∧
        (c = '-' ∨ c.isDigit = true) := by
      obtain ⟨d, ds, rfl, hd⟩ := hint.head
      simp only [List.mem_cons, List.not_mem_nil, or_false] at hsign
      rcases hsign with rfl | rfl
      · exact ⟨d, _, rfl, .inr hd⟩
      · exact ⟨'-', _, rfl, .inl rfl⟩
    obtain ⟨c, tail, htext, hc⟩ := hhead
    rw [htext] at hread ⊢
    unfold plainValue
    split
    all_goals first
      | exact hread
      | next heq =>
        obtain ⟨rfl, -⟩ := List.cons.inj heq
        rcases hc with hc | hc <;> cases hc

end TinyJson

end SerialChrono
