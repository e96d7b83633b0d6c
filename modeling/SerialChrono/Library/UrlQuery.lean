import Mathlib.Tactic.Common
import Mathlib.Data.List.Infix
import Mathlib.Data.List.TakeWhile

/-!
# The parameters of a URL query

How a server reads the value of a parameter in the query of a URL: it goes up to the `&` of the
next parameter or the `#` of the fragment, which is not sent, and in it `+` stands for a blank and
`%` with two hexadecimal digits for a character.  Whoever puts a text into a query without
encoding it gets it back if none of these occurs in it (`paramValue_eq_self_iff`), and words with
`%20` between them come back with blanks between them under the same condition on each word
(`paramValue_words_iff`).
-/

namespace UrlQuery

/-- The value of a hexadecimal digit. -/
def hexValue (c : Char) : Option ℕ :=
  if '0' ≤ c ∧ c ≤ '9' then some (c.toNat - '0'.toNat)
  else if 'a' ≤ c ∧ c ≤ 'f' then some (c.toNat - 'a'.toNat + 10)
  else if 'A' ≤ c ∧ c ≤ 'F' then some (c.toNat - 'A'.toNat + 10)
  else none

/-- The character three others stand for, if they are an escape. -/
def escaped (c a b : Char) : Option Char :=
  if c = '%' then do
    let x ← hexValue a
    let y ← hexValue b
    return Char.ofNat (16 * x + y)
  else none

/-- A character that is not escaped. -/
def decodeChar (c : Char) : Char := if c = '+' then ' ' else c

/-- The text a value stands for. -/
def decode : List Char → List Char
  | [] => []
  | [c] => [decodeChar c]
  | [c, a] => [decodeChar c, decodeChar a]
  | c :: a :: b :: s =>
    match escaped c a b with
    | some d => d :: decode s
    | none => decodeChar c :: decode (a :: b :: s)

/-- The characters before the end of a value. -/
def upToEnd (s : List Char) : List Char := s.takeWhile fun c => c ≠ '&' && c ≠ '#'

/-- The value of a parameter that a query continues with. -/
def paramValue (s : List Char) : List Char := decode (upToEnd s)

/-! ## Decoding -/

lemma decodeChar_eq_self_iff {c : Char} : decodeChar c = c ↔ c ≠ '+' := by
  unfold decodeChar
  split_ifs with hc
  · subst hc
    decide
  · exact iff_of_true rfl hc

/-- A character that begins no escape. -/
lemma decode_cons {c : Char} {s : List Char}
    (h : ∀ a b rest, s = a :: b :: rest → escaped c a b = none) :
    decode (c :: s) = decodeChar c :: decode s := by
  match s with
  | [] => rfl
  | [a] => rfl
  | a :: b :: rest => rw [decode, h a b rest rfl]

lemma escaped_of_ne {c : Char} (hc : c ≠ '%') (a b : Char) : escaped c a b = none := if_neg hc

lemma escaped_percent {c a b : Char} (h : a = '%' ∨ b = '%') : escaped c a b = none := by
  have hpercent : hexValue '%' = none := by decide
  unfold escaped
  split_ifs
  · rcases h with rfl | rfl
    · rw [hpercent]
      rfl
    · rw [hpercent]
      cases hexValue a <;> rfl
  · rfl

/-- No escape begins before a `%` and ends behind it. -/
lemma decode_append_percent (w s : List Char) :
    decode (w ++ '%' :: s) = decode w ++ decode ('%' :: s) := by
  fun_induction decode w with
  | case1 => rfl
  | case2 c =>
    refine decode_cons fun a b rest h => escaped_percent (Or.inl ?_)
    exact (List.cons.inj h).1.symm
  | case3 c a =>
    have hc : decode ([c, a] ++ '%' :: s) = decodeChar c :: decode (a :: '%' :: s) := by
      refine decode_cons fun a' b rest h => escaped_percent (Or.inr ?_)
      exact (List.cons.inj (List.cons.inj h).2).1.symm
    have ha : decode (a :: '%' :: s) = decodeChar a :: decode ('%' :: s) := by
      refine decode_cons fun a' b rest h => escaped_percent (Or.inl ?_)
      exact (List.cons.inj h).1.symm
    rw [hc, ha]
    rfl
  | case4 c a b rest d hescaped ih =>
    rw [List.cons_append, List.cons_append, List.cons_append, decode, hescaped, ih]
    rfl
  | case5 c a b rest hescaped ih =>
    rw [List.cons_append, List.cons_append, List.cons_append, decode, hescaped,
      ← List.cons_append, ← List.cons_append, ih]
    rfl

lemma length_decode_le (s : List Char) : (decode s).length ≤ s.length := by
  fun_induction decode s with
  | case1 | case2 | case3 => simp
  | case4 c a b rest d _ ih =>
    simp only [List.length_cons]
    omega
  | case5 c a b rest _ ih =>
    simp only [List.length_cons] at ih ⊢
    omega

/-- No escape occurs in the text. -/
def NoEscape (s : List Char) : Prop :=
  ∀ a b, ['%', a, b] <:+: s → hexValue a = none ∨ hexValue b = none

lemma escaped_eq_none_iff {c a b : Char} :
    escaped c a b = none ↔ (c = '%' → hexValue a = none ∨ hexValue b = none) := by
  unfold escaped
  split_ifs with hc
  · cases hexValue a <;> cases hexValue b <;> simp [hc]
  · exact iff_of_true rfl fun h => absurd h hc

lemma noEscape_of_length {s : List Char} (h : s.length < 3) : NoEscape s := by
  intro a b hescape
  have := hescape.length_le
  simp only [List.length_cons, List.length_nil] at this
  omega

lemma noEscape_cons {c a b : Char} {s : List Char} :
    NoEscape (c :: a :: b :: s) ↔ escaped c a b = none ∧ NoEscape (a :: b :: s) := by
  have hescape : ∀ x y, ['%', x, y] <:+: c :: a :: b :: s ↔
      (c = '%' ∧ x = a ∧ y = b) ∨ ['%', x, y] <:+: a :: b :: s := by
    intro x y
    simp only [List.infix_cons_iff, List.cons_prefix_cons, List.nil_prefix, and_true, eq_comm]
  rw [escaped_eq_none_iff]
  constructor
  · intro h
    exact ⟨fun hc => h a b ((hescape a b).mpr (Or.inl ⟨hc, rfl, rfl⟩)),
      fun x y hxy => h x y ((hescape x y).mpr (Or.inr hxy))⟩
  · rintro ⟨hhead, htail⟩ x y hxy
    rcases (hescape x y).mp hxy with ⟨hc, rfl, rfl⟩ | hxy
    · exact hhead hc
    · exact htail x y hxy

/-- Decoding changes exactly the texts with a `+` or an escape in them. -/
lemma decode_eq_self_iff (s : List Char) : decode s = s ↔ '+' ∉ s ∧ NoEscape s := by
  fun_induction decode s with
  | case1 => simp [NoEscape]
  | case2 c =>
    have hnone : NoEscape [c] := noEscape_of_length (by simp)
    simp [decodeChar_eq_self_iff, hnone, @eq_comm _ '+']
  | case3 c a =>
    have hnone : NoEscape [c, a] := noEscape_of_length (by simp)
    simp [decodeChar_eq_self_iff, hnone, @eq_comm _ '+']
  | case4 c a b rest d hescaped ih =>
    refine iff_of_false (fun h => ?_) fun h => ?_
    · -- three characters have become one
      have hlength := congrArg List.length h
      have := length_decode_le rest
      simp only [List.length_cons] at hlength
      omega
    · rw [noEscape_cons, hescaped] at h
      cases h.2.1
  | case5 c a b rest hescaped ih =>
    rw [noEscape_cons, List.cons.injEq, decodeChar_eq_self_iff, ih]
    simp only [List.mem_cons, not_or, hescaped, true_and, @eq_comm _ '+', and_assoc]

/-! ## Values -/

/-- A text that comes back as it is. -/
structure Unreserved (s : List Char) : Prop where
  amp : '&' ∉ s
  hash : '#' ∉ s
  plus : '+' ∉ s
  noEscape : NoEscape s

lemma upToEnd_eq_self_iff {s : List Char} : upToEnd s = s ↔ '&' ∉ s ∧ '#' ∉ s := by
  rw [upToEnd, List.takeWhile_eq_self_iff]
  constructor
  · intro h
    exact ⟨fun hamp => by simpa using h _ hamp, fun hhash => by simpa using h _ hhash⟩
  · rintro ⟨hamp, hhash⟩ c hc
    have ha : c ≠ '&' := fun h => hamp (h ▸ hc)
    have hh : c ≠ '#' := fun h => hhash (h ▸ hc)
    simp [ha, hh]

/-- What stands before the end of a value, after a text without an end in it. -/
lemma upToEnd_append {w : List Char} (h : upToEnd w = w) (s : List Char) :
    upToEnd (w ++ s) = w ++ upToEnd s := by
  rw [upToEnd, List.takeWhile_append, ← upToEnd, if_pos (by rw [h])]
  rfl

/-- A text with an end in it is cut there. -/
lemma upToEnd_append_of_ne {w : List Char} (h : upToEnd w ≠ w) (s : List Char) :
    upToEnd (w ++ s) = upToEnd w ∧ (upToEnd w).length < w.length := by
  have hcut : upToEnd w <+: w := List.takeWhile_prefix _
  have hlength : (upToEnd w).length ≠ w.length := fun hl => h (hcut.eq_of_length hl)
  refine ⟨?_, lt_of_le_of_ne hcut.length_le hlength⟩
  rw [upToEnd, List.takeWhile_append, ← upToEnd, if_neg hlength]

lemma length_paramValue_le (s : List Char) : (paramValue s).length ≤ s.length :=
  (length_decode_le _).trans (List.takeWhile_prefix _).length_le

/-- A value comes back as it is exactly if it has none of the characters with a meaning. -/
lemma paramValue_eq_self_iff (s : List Char) : paramValue s = s ↔ Unreserved s := by
  unfold paramValue
  by_cases h : upToEnd s = s
  · rw [h, decode_eq_self_iff]
    obtain ⟨hamp, hhash⟩ := upToEnd_eq_self_iff.mp h
    exact ⟨fun hd => ⟨hamp, hhash, hd.1, hd.2⟩, fun hu => ⟨hu.plus, hu.noEscape⟩⟩
  · refine iff_of_false (fun heq => ?_) fun hu => h (upToEnd_eq_self_iff.mpr ⟨hu.amp, hu.hash⟩)
    have hcut := (upToEnd_append_of_ne h []).2
    have hshort := length_decode_le (upToEnd s)
    rw [heq] at hshort
    omega

/-- A value ends where the next parameter begins. -/
lemma paramValue_append_amp (s rest : List Char) :
    paramValue (s ++ '&' :: rest) = paramValue s := by
  have hend : upToEnd (s ++ '&' :: rest) = upToEnd s := by
    by_cases h : upToEnd s = s
    · rw [upToEnd_append h, h]
      exact List.append_nil s
    · exact (upToEnd_append_of_ne h _).1
  rw [paramValue, hend]
  rfl

/-- Characters without a meaning before a value. -/
lemma paramValue_append {p : List Char}
    (hp : ∀ c ∈ p, c ≠ '&' ∧ c ≠ '#' ∧ c ≠ '+' ∧ c ≠ '%') (s : List Char) :
    paramValue (p ++ s) = p ++ paramValue s := by
  have hself : upToEnd p = p := by
    rw [upToEnd_eq_self_iff]
    exact ⟨fun h => (hp _ h).1 rfl, fun h => (hp _ h).2.1 rfl⟩
  rw [paramValue, upToEnd_append hself, paramValue]
  clear hself
  induction p with
  | nil => rfl
  | cons c p ih =>
    obtain ⟨-, -, hplus, hpercent⟩ := hp c List.mem_cons_self
    rw [List.cons_append, decode_cons fun a b _ _ => escaped_of_ne hpercent a b,
      decodeChar_eq_self_iff.mpr hplus, ih fun d hd => hp d (List.mem_cons_of_mem c hd)]
    rfl

/-! ## Words with encoded blanks between them -/

lemma decode_blank (s : List Char) : decode ('%' :: '2' :: '0' :: s) = ' ' :: decode s := rfl

lemma paramValue_append_blank {w : List Char} (h : upToEnd w = w) (s : List Char) :
    paramValue (w ++ ("%20".toList ++ s)) = decode w ++ ' ' :: paramValue s := by
  have hblank : upToEnd ("%20".toList ++ s) = '%' :: '2' :: '0' :: upToEnd s :=
    upToEnd_append (by decide) s
  rw [paramValue, upToEnd_append h, hblank, decode_append_percent, decode_blank]
  rfl

/-- Decoding does not make the words longer. -/
lemma length_paramValue_words_le (first : List Char) (rest : List (List Char)) :
    (paramValue (first ++ rest.flatMap fun w => "%20".toList ++ w)).length ≤
      (first ++ rest.flatMap fun w => ' ' :: w).length := by
  induction rest generalizing first with
  | nil => simpa using length_paramValue_le first
  | cons w rest ih =>
    rw [List.flatMap_cons, List.flatMap_cons, List.append_assoc]
    by_cases h : upToEnd first = first
    · have hrest := ih w
      have hfirst := length_decode_le first
      rw [paramValue_append_blank h]
      simp only [List.length_append, List.length_cons] at hrest ⊢
      omega
    · obtain ⟨hcut, hlt⟩ := upToEnd_append_of_ne h
        ("%20".toList ++ (w ++ rest.flatMap fun w => "%20".toList ++ w))
      have hdecode := length_decode_le (upToEnd first)
      rw [paramValue, hcut, List.length_append]
      omega

/-- **Words put into a query with `%20` between them.** They come back with blanks between them
exactly if every word comes back as it is. -/
theorem paramValue_words_iff (first : List Char) (rest : List (List Char)) :
    paramValue (first ++ rest.flatMap fun w => "%20".toList ++ w) =
        first ++ rest.flatMap (fun w => ' ' :: w) ↔
      ∀ w ∈ first :: rest, Unreserved w := by
  induction rest generalizing first with
  | nil => simp [paramValue_eq_self_iff]
  | cons w rest ih =>
    rw [List.flatMap_cons, List.flatMap_cons, List.append_assoc, List.forall_mem_cons, ← ih w,
      ← paramValue_eq_self_iff]
    by_cases h : upToEnd first = first
    · have hfirst : paramValue first = decode first := by rw [paramValue, h]
      have hlength := length_decode_le first
      have hrest := length_paramValue_words_le w rest
      rw [paramValue_append_blank h, hfirst]
      constructor
      · -- neither part has become longer, so both have kept their length
        intro heq
        have hsame := congrArg List.length heq
        simp only [List.length_append, List.length_cons] at hsame hrest
        obtain ⟨hleft, hright⟩ := List.append_inj heq (by omega)
        exact ⟨hleft, (List.cons.inj hright).2⟩
      · rintro ⟨hleft, hright⟩
        rw [hleft, hright]
        rfl
    · obtain ⟨hcut, hlt⟩ := upToEnd_append_of_ne h
        ("%20".toList ++ (w ++ rest.flatMap fun w => "%20".toList ++ w))
      have hdecode := length_decode_le (upToEnd first)
      refine iff_of_false (fun heq => ?_) fun heq => ?_
      · have hsame := congrArg List.length heq
        rw [paramValue, hcut, List.length_append] at hsame
        omega
      · have hsame := congrArg List.length heq.1
        rw [paramValue] at hsame
        omega

end UrlQuery
