import SerialChrono.Library.Utf8

/-!
# JSON texts

The grammar of JSON (RFC 8259) over the bytes of a text: `Reads` relates a text to the phrase it
begins with and to what follows it, and `Denotes` is a whole text, which has to be UTF-8.  The
strings of a value are given as the bytes of their UTF-8 encoding, so that the string a literal
stands for can be compared with the bytes a program has put into it.

A program that writes a literal by putting quotes around a text writes that text exactly if the
text is `Plain`.  One direction is `reads_objectText`: an object of such literals is read as
itself.  The other is `ordinary_of_reads`: if any literal in the text around it is read as the
text that was put in, there was nothing in it to be read otherwise.
-/

namespace JsonText

/-! ## Strings -/

/-- A piece of a string literal: a byte that stands for itself, a character written with a
backslash, or a UTF-16 code unit written with `\u` and four digits. -/
inductive StringItem
  | byte (c : Char)
  | escape (c : Char)
  | unit (u : ℕ)
  deriving DecidableEq

/-- The character a backslash makes of another one. -/
def simpleEscape : Char → Option Char
  | '"' => some '"'
  | '\\' => some '\\'
  | '/' => some '/'
  | 'b' => some '\x08'
  | 'f' => some '\x0c'
  | 'n' => some '\n'
  | 'r' => some '\r'
  | 't' => some '\t'
  | _ => none

/-- The value of a hexadecimal digit. -/
def hexDigit (c : Char) : Option ℕ :=
  if '0' ≤ c ∧ c ≤ '9' then some (c.toNat - '0'.toNat)
  else if 'a' ≤ c ∧ c ≤ 'f' then some (c.toNat - 'a'.toNat + 10)
  else if 'A' ≤ c ∧ c ≤ 'F' then some (c.toNat - 'A'.toNat + 10)
  else none

/-- The number written with four hexadecimal digits. -/
def hex4 (a b c d : Char) : Option ℕ := do
  let a ← hexDigit a
  let b ← hexDigit b
  let c ← hexDigit c
  let d ← hexDigit d
  return 16 * (16 * (16 * a + b) + c) + d

/-- A byte that stands for itself in a literal. -/
def Ordinary (c : Char) : Prop := c ≠ '"' ∧ c ≠ '\\' ∧ 0x20 ≤ c.toNat

instance (c : Char) : Decidable (Ordinary c) := inferInstanceAs (Decidable (_ ∧ _ ∧ _))

/-- What follows the opening quote of a literal is read as these pieces, up to the closing quote,
with the rest after it. -/
inductive ReadsItems : List Char → List StringItem → List Char → Prop
  | close (rest : List Char) : ReadsItems ('"' :: rest) [] rest
  | byte {c : Char} {s rest : List Char} {items : List StringItem} (hc : Ordinary c)
      (h : ReadsItems s items rest) : ReadsItems (c :: s) (.byte c :: items) rest
  | escape {c x : Char} {s rest : List Char} {items : List StringItem}
      (hx : simpleEscape c = some x) (h : ReadsItems s items rest) :
      ReadsItems ('\\' :: c :: s) (.escape x :: items) rest
  | unit {a b c d : Char} {u : ℕ} {s rest : List Char} {items : List StringItem}
      (hu : hex4 a b c d = some u) (h : ReadsItems s items rest) :
      ReadsItems ('\\' :: 'u' :: a :: b :: c :: d :: s) (.unit u :: items) rest

/-- The UTF-8 encoding of a code point. -/
def utf8Bytes (n : ℕ) : List Char :=
  if n < 0x80 then [Char.ofNat n]
  else if n < 0x800 then [Char.ofNat (0xC0 + n / 64), Char.ofNat (0x80 + n % 64)]
  else if n < 0x10000 then
    [Char.ofNat (0xE0 + n / 4096), Char.ofNat (0x80 + n / 64 % 64), Char.ofNat (0x80 + n % 64)]
  else
    [Char.ofNat (0xF0 + n / 262144), Char.ofNat (0x80 + n / 4096 % 64),
      Char.ofNat (0x80 + n / 64 % 64), Char.ofNat (0x80 + n % 64)]

/-- The bytes the pieces stand for.  Two units that are a surrogate pair are one character. -/
def decode : List StringItem → List Char
  | [] => []
  | .byte c :: items => c :: decode items
  | .escape c :: items => c :: decode items
  | .unit hi :: .unit lo :: items =>
    if 0xD800 ≤ hi ∧ hi < 0xDC00 ∧ 0xDC00 ≤ lo ∧ lo < 0xE000 then
      utf8Bytes (0x10000 + 1024 * (hi - 0xD800) + (lo - 0xDC00)) ++ decode items
    else utf8Bytes hi ++ decode (.unit lo :: items)
  | .unit u :: items => utf8Bytes u ++ decode items

/-! ## Values -/

/-- A JSON value; a number is kept as it is written. -/
inductive Value
  | null
  | bool (b : Bool)
  | number (text : List Char)
  | string (bytes : List Char)
  | array (vs : List Value)
  | object (ms : List (List Char × Value))

/-- Digits, at least one. -/
def Digits (s : List Char) : Prop := s ≠ [] ∧ ∀ c ∈ s, c.isDigit = true

/-- A number: its sign, its integer part, without leading zeros, its fraction and its exponent. -/
def IsNumber (s : List Char) : Prop :=
  ∃ sign int frac exp, s = sign ++ int ++ frac ++ exp ∧ sign ∈ [[], ['-']] ∧
    Digits int ∧ (int.head? = some '0' → int = ['0']) ∧
    (frac = [] ∨ ∃ ds, Digits ds ∧ frac = '.' :: ds) ∧
    (exp = [] ∨ ∃ e ∈ ['e', 'E'], ∃ sign ∈ [[], ['+'], ['-']], ∃ ds, Digits ds ∧
      exp = e :: sign ++ ds)

/-- The second text is what follows the white space the first begins with. -/
def SkipsSpace (s t : List Char) : Prop :=
  ∃ w, (∀ c ∈ w, c ∈ [' ', '\t', '\n', '\r']) ∧ s = w ++ t

/-- What a text can begin with: a value, and what stands between the brackets of an array or an
object that is not empty, with the closing one. -/
inductive Phrase
  | value (v : Value)
  | elements (vs : List Value)
  | member (name : List Char) (v : Value)
  | members (ms : List (List Char × Value))

/-- The text begins with the phrase, and continues with the rest. -/
inductive Reads : List Char → Phrase → List Char → Prop
  | null (rest : List Char) : Reads ("null".toList ++ rest) (.value .null) rest
  | true (rest : List Char) : Reads ("true".toList ++ rest) (.value (.bool true)) rest
  | false (rest : List Char) : Reads ("false".toList ++ rest) (.value (.bool false)) rest
  | number {text : List Char} (h : IsNumber text) (rest : List Char) :
      Reads (text ++ rest) (.value (.number text)) rest
  | string {s rest : List Char} {items : List StringItem} (h : ReadsItems s items rest) :
      Reads ('"' :: s) (.value (.string (decode items))) rest
  | emptyArray {s rest : List Char} (h : SkipsSpace s (']' :: rest)) :
      Reads ('[' :: s) (.value (.array [])) rest
  | array {s rest : List Char} {vs : List Value} (h : Reads s (.elements vs) rest) :
      Reads ('[' :: s) (.value (.array vs)) rest
  | emptyObject {s rest : List Char} (h : SkipsSpace s ('}' :: rest)) :
      Reads ('{' :: s) (.value (.object [])) rest
  | object {s rest : List Char} {ms : List (List Char × Value)}
      (h : Reads s (.members ms) rest) : Reads ('{' :: s) (.value (.object ms)) rest
  | lastElement {s t t' rest : List Char} {v : Value} (hs : SkipsSpace s t)
      (h : Reads t (.value v) t') (ht : SkipsSpace t' (']' :: rest)) :
      Reads s (.elements [v]) rest
  | consElement {s t t' u rest : List Char} {v : Value} {vs : List Value} (hs : SkipsSpace s t)
      (h : Reads t (.value v) t') (ht : SkipsSpace t' (',' :: u))
      (hvs : Reads u (.elements vs) rest) : Reads s (.elements (v :: vs)) rest
  | member {s t t' u u' rest : List Char} {name : List StringItem} {v : Value}
      (hs : SkipsSpace s ('"' :: t)) (hname : ReadsItems t name t')
      (ht : SkipsSpace t' (':' :: u)) (hu : SkipsSpace u u') (h : Reads u' (.value v) rest) :
      Reads s (.member (decode name) v) rest
  | lastMember {s t rest name : List Char} {v : Value} (h : Reads s (.member name v) t)
      (ht : SkipsSpace t ('}' :: rest)) : Reads s (.members [(name, v)]) rest
  | consMember {s t u rest name : List Char} {v : Value} {ms : List (List Char × Value)}
      (h : Reads s (.member name v) t) (ht : SkipsSpace t (',' :: u))
      (hms : Reads u (.members ms) rest) : Reads s (.members ((name, v) :: ms)) rest

/-- The whole text is the value, with white space around it. -/
structure Denotes (text : List Char) (v : Value) : Prop where
  utf8 : Utf8.Valid text
  reads : ∃ s t, SkipsSpace text s ∧ Reads s (.value v) t ∧ SkipsSpace t []

/-- The member of a name: the last one, if there are several. -/
def field (ms : List (List Char × Value)) (name : List Char) : Option Value :=
  (ms.reverse.find? fun m => m.1 == name).map Prod.snd

/-! ## What is read stands in the text -/

lemma ReadsItems.suffix {s rest : List Char} {items : List StringItem}
    (h : ReadsItems s items rest) : rest <:+ s := by
  induction h with
  | close rest => exact List.suffix_cons _ _
  | byte _ _ ih => exact ih.trans (List.suffix_cons _ _)
  | escape _ _ ih => exact ih.trans (List.suffix_append ['\\', _] _)
  | unit _ _ ih => exact ih.trans (List.suffix_append ['\\', 'u', _, _, _, _] _)

lemma SkipsSpace.suffix {s t : List Char} (h : SkipsSpace s t) : t <:+ s := by
  obtain ⟨w, -, rfl⟩ := h
  exact List.suffix_append w t

lemma SkipsSpace.behind {s t : List Char} {c : Char} (h : SkipsSpace s (c :: t)) : t <:+ s :=
  (List.suffix_cons c t).trans h.suffix

lemma SkipsSpace.refl (s : List Char) : SkipsSpace s s := ⟨[], by simp, rfl⟩

lemma Reads.suffix {s rest : List Char} {p : Phrase} (h : Reads s p rest) : rest <:+ s := by
  induction h with
  | null | true | false | number => exact List.suffix_append _ _
  | string h => exact h.suffix.trans (List.suffix_cons _ _)
  | emptyArray h | emptyObject h => exact h.behind.trans (List.suffix_cons _ _)
  | array _ ih | object _ ih => exact ih.trans (List.suffix_cons _ _)
  | lastElement hs _ ht ih => exact (ht.behind.trans ih).trans hs.suffix
  | consElement hs _ ht _ ih ihs => exact ((ihs.trans ht.behind).trans ih).trans hs.suffix
  | member hs hname ht hu _ ih =>
    exact (((ih.trans hu.suffix).trans ht.behind).trans hname.suffix).trans hs.behind
  | lastMember _ ht ih => exact ht.behind.trans ih
  | consMember _ ht _ ih ihs => exact (ihs.trans ht.behind).trans ih

/-- Somewhere in the text this string is read. -/
def ReadsString (s bytes : List Char) : Prop :=
  ∃ t items rest, t <:+ s ∧ ReadsItems t items rest ∧ decode items = bytes

lemma ReadsString.of_suffix {s t bytes : List Char} (h : ReadsString t bytes) (hts : t <:+ s) :
    ReadsString s bytes := by
  obtain ⟨u, items, rest, hu, hitems, hbytes⟩ := h
  exact ⟨u, items, rest, hu.trans hts, hitems, hbytes⟩

lemma Reads.readsString_member {s rest name bytes : List Char}
    (h : Reads s (.member name (.string bytes)) rest) : ReadsString s bytes := by
  cases h with
  | member hs hname ht hu h =>
    cases h with
    | string h =>
      have hvalue := hu.behind.trans ht.behind
      exact ⟨_, _, _, (hvalue.trans hname.suffix).trans hs.behind, h, rfl⟩

lemma Reads.readsString_members {s rest name bytes : List Char} {ms : List (List Char × Value)}
    (h : Reads s (.members ms) rest) (hmem : (name, .string bytes) ∈ ms) :
    ReadsString s bytes := by
  generalize hp : Phrase.members ms = p at h
  induction h generalizing ms with
  | lastMember h _ _ =>
    cases hp
    obtain ⟨rfl, rfl⟩ := Prod.mk.inj (List.mem_singleton.mp hmem)
    exact h.readsString_member
  | consMember h ht hms _ ihs =>
    cases hp
    rcases List.mem_cons.mp hmem with hmem | hmem
    · obtain ⟨rfl, rfl⟩ := Prod.mk.inj hmem
      exact h.readsString_member
    · exact (ihs hmem rfl).of_suffix (ht.behind.trans h.suffix)
  | _ => cases hp

/-- A string that is a field of an object is read in its text. -/
lemma Denotes.readsString {text name bytes : List Char} {ms : List (List Char × Value)}
    (h : Denotes text (.object ms)) (hfield : field ms name = some (.string bytes)) :
    ReadsString text bytes := by
  obtain ⟨s, t, hs, hreads, -⟩ := h.reads
  obtain ⟨⟨name', v⟩, hfind, rfl⟩ := Option.map_eq_some_iff.mp hfield
  have hmem : (name', .string bytes) ∈ ms := List.mem_reverse.mp (List.mem_of_find?_eq_some hfind)
  cases hreads with
  | emptyObject => cases hmem
  | object h =>
    exact (h.readsString_members hmem).of_suffix ((List.suffix_cons _ _).trans hs.suffix)

/-! ## What a literal stands for -/

/-- The number of bytes a piece is written with. -/
def StringItem.size : StringItem → ℕ
  | .byte _ => 1
  | .escape _ => 2
  | .unit _ => 6

/-- The number of bytes a literal is written with, between its quotes. -/
def itemsSize (items : List StringItem) : ℕ := items.foldr (fun i size => i.size + size) 0

@[simp] lemma itemsSize_cons (i : StringItem) (items : List StringItem) :
    itemsSize (i :: items) = i.size + itemsSize items := rfl

lemma length_utf8Bytes_le (n : ℕ) : (utf8Bytes n).length ≤ 4 := by
  unfold utf8Bytes
  split_ifs <;> simp

@[simp] lemma decode_bytes (w : List Char) : decode (w.map .byte) = w := by
  induction w with
  | nil => rfl
  | cons c w ih => rw [List.map_cons, decode, ih]

/-- A unit with no other one after it. -/
lemma decode_unit (u : ℕ) {items : List StringItem}
    (h : ∀ lo rest, items = .unit lo :: rest → False) :
    decode (.unit u :: items) = utf8Bytes u ++ decode items := by
  cases items with
  | nil => rfl
  | cons i items =>
    cases i with
    | byte | escape => rfl
    | unit lo => exact (h lo items rfl).elim

lemma decode_append_byte (items : List StringItem) (c : Char) :
    decode (items ++ [.byte c]) = decode items ++ [c] := by
  fun_induction decode items with
  | case1 => rfl
  | case2 d items ih | case3 d items ih => rw [List.cons_append, decode, ih]; rfl
  | case4 hi lo items hpair ih =>
    rw [List.cons_append, List.cons_append, decode, if_pos hpair, ih, List.append_assoc]
  | case5 hi lo items hpair ih =>
    rw [List.cons_append, List.cons_append, decode, if_neg hpair, ← List.cons_append, ih,
      List.append_assoc]
  | case6 u items hunit ih =>
    have happend : ∀ lo rest, items ++ [.byte c] = .unit lo :: rest → False := by
      intro lo rest heq
      cases items with
      | nil => cases heq
      | cons i items => exact hunit lo items (congrArg (· :: items) (List.cons.inj heq).1)
    rw [List.cons_append, decode_unit u happend, ih, List.append_assoc]

/-- A literal stands for no more bytes than it is written with, and only the bytes that stand for
themselves are as many. -/
lemma length_decode_le (items : List StringItem) :
    (decode items).length ≤ itemsSize items ∧
      ((decode items).length = itemsSize items → ∃ w : List Char, items = w.map .byte) := by
  fun_induction decode items with
  | case1 => exact ⟨Nat.le_refl 0, fun _ => ⟨[], rfl⟩⟩
  | case2 c items ih =>
    rw [itemsSize_cons, StringItem.size, List.length_cons]
    refine ⟨by omega, fun h => ?_⟩
    obtain ⟨w, rfl⟩ := ih.2 (by omega)
    exact ⟨c :: w, rfl⟩
  | case3 c items ih =>
    rw [itemsSize_cons, StringItem.size, List.length_cons]
    exact ⟨by omega, fun h => by omega⟩
  | case4 hi lo items hpair ih =>
    have hbytes := length_utf8Bytes_le (0x10000 + 1024 * (hi - 0xD800) + (lo - 0xDC00))
    rw [itemsSize_cons, itemsSize_cons, StringItem.size, StringItem.size, List.length_append]
    exact ⟨by omega, fun h => by omega⟩
  | case5 hi lo items hpair ih =>
    have hbytes := length_utf8Bytes_le hi
    rw [itemsSize_cons, StringItem.size, List.length_append]
    exact ⟨by omega, fun h => by omega⟩
  | case6 u items hunit ih =>
    have hbytes := length_utf8Bytes_le u
    rw [itemsSize_cons, StringItem.size, List.length_append]
    exact ⟨by omega, fun h => by omega⟩

/-! ## A text between quotes -/

/-- Bytes that stand for themselves are read as they are. -/
lemma readsItems_bytes {w : List Char} (hw : ∀ c ∈ w, Ordinary c) (rest : List Char) :
    ReadsItems (w ++ '"' :: rest) (w.map .byte) rest := by
  induction w with
  | nil => exact .close rest
  | cons c w ih =>
    exact .byte (hw c List.mem_cons_self) (ih fun d hd => hw d (List.mem_cons_of_mem c hd))

lemma ReadsItems.ordinary {s w rest : List Char} (h : ReadsItems s (w.map .byte) rest) :
    ∀ c ∈ w, Ordinary c := by
  generalize hitems : w.map StringItem.byte = items at h
  induction h generalizing w with
  | close rest =>
    rw [List.map_eq_nil_iff.mp hitems]
    simp
  | byte hc _ ih =>
    obtain ⟨d, w, rfl, hd, hw⟩ := List.map_eq_cons_iff.mp hitems
    cases hd
    exact List.forall_mem_cons.mpr ⟨hc, ih hw⟩
  | escape | unit =>
    obtain ⟨d, w, rfl, hd, -⟩ := List.map_eq_cons_iff.mp hitems
    cases hd

/-- A literal without a backslash. -/
lemma ReadsItems.exists_bytes {s rest : List Char} {items : List StringItem}
    (h : ReadsItems s items rest) (hs : '\\' ∉ s.takeWhile (· ≠ '"')) :
    ∃ w : List Char, items = w.map .byte := by
  induction h with
  | close rest => exact ⟨[], rfl⟩
  | @byte c s rest items hc _ ih =>
    have htake : (c :: s).takeWhile (· ≠ '"') = c :: s.takeWhile (· ≠ '"') :=
      List.takeWhile_cons_of_pos (by simpa using hc.1)
    rw [htake] at hs
    obtain ⟨w, rfl⟩ := ih fun hmem => hs (List.mem_cons_of_mem c hmem)
    exact ⟨c :: w, rfl⟩
  | escape | unit =>
    refine absurd ?_ hs
    rw [List.takeWhile_cons_of_pos (by decide)]
    exact List.mem_cons_self

lemma hex4_quote {a b c d : Char} (h : a = '"' ∨ b = '"' ∨ c = '"' ∨ d = '"') :
    hex4 a b c d = none := by
  have hquote : hexDigit '"' = none := by decide
  unfold hex4
  rcases h with rfl | rfl | rfl | rfl <;> simp [hquote]

lemma getLast?_cons_of_some {w : List Char} {c : Char} (h : w.getLast? = some c) (d : Char) :
    (d :: w).getLast? = some c := by
  rw [List.getLast?_cons, h]
  rfl

/-- A literal that begins in a text with a quote, a comma and another quote after it: it is no
longer than the text, or the text ends with a backslash and the literal with the comma. -/
lemma ReadsItems.size_le {w s rest : List Char} {items : List StringItem}
    (h : ReadsItems (w ++ '"' :: ',' :: '"' :: s) items rest) :
    itemsSize items ≤ w.length ∨
      (∃ items', items = items' ++ [.byte ',']) ∧ w.getLast? = some '\\' := by
  generalize ht : w ++ '"' :: ',' :: '"' :: s = t at h
  induction h generalizing w with
  | close rest => exact Or.inl (Nat.zero_le _)
  | byte hc _ ih =>
    match w with
    | [] =>
      cases ht
      exact absurd rfl hc.1
    | d :: w =>
      obtain ⟨rfl, hrest⟩ := List.cons.inj ht
      rcases ih hrest with hle | ⟨⟨items', rfl⟩, hlast⟩
      · left
        rw [itemsSize_cons, StringItem.size, List.length_cons]
        omega
      · exact Or.inr ⟨⟨.byte d :: items', rfl⟩, getLast?_cons_of_some hlast d⟩
  | escape hx h ih =>
    match w with
    | [] => cases ht
    | [d] =>
      -- the closing quote is the one that was escaped
      cases ht
      cases h with
      | byte _ h =>
        cases h with
        | close => exact Or.inr ⟨⟨[.escape _], rfl⟩, rfl⟩
        | byte hc => exact absurd rfl hc.1
    | d :: e :: w =>
      cases ht
      rcases ih rfl with hle | ⟨⟨items', rfl⟩, hlast⟩
      · left
        rw [itemsSize_cons, StringItem.size, List.length_cons, List.length_cons]
        omega
      · exact Or.inr ⟨⟨.escape _ :: items', rfl⟩,
          getLast?_cons_of_some (getLast?_cons_of_some hlast _) _⟩
  | unit hu h ih =>
    match w with
    | [] | [_] => cases ht
    | [_, _] | [_, _, _] | [_, _, _, _] | [_, _, _, _, _] =>
      cases ht
      rw [hex4_quote (by simp)] at hu
      cases hu
    | _ :: _ :: _ :: _ :: _ :: _ :: w =>
      cases ht
      rcases ih rfl with hle | ⟨⟨items', rfl⟩, hlast⟩
      · left
        rw [itemsSize_cons, StringItem.size]
        simp only [List.length_cons]
        omega
      · refine Or.inr ⟨⟨.unit _ :: items', rfl⟩, ?_⟩
        simp [List.getLast?_cons, hlast]

lemma mem_of_mem_takeWhile_append {p s : List Char} {c d : Char}
    (h : c ∈ (p ++ d :: s).takeWhile (· ≠ d)) : c ∈ p := by
  rw [List.takeWhile_append, List.takeWhile_cons_of_neg (by simp), List.append_nil] at h
  split_ifs at h
  · exact h
  · exact List.takeWhile_subset _ h

/-- **A literal made of a text.** If any string in the text around it, which has no backslash and
no quotes but its own, is the text that was put in, the bytes of that stand for themselves. -/
theorem ordinary_of_readsString {before w after : List Char}
    (hbefore : '\\' ∉ before) (hafter : '\\' ∉ '"' :: ',' :: '"' :: after)
    (h : ReadsString (before ++ '"' :: (w ++ '"' :: ',' :: '"' :: after)) w) :
    ∀ c ∈ w, Ordinary c := by
  obtain ⟨t, items, rest, ht, hitems, hw⟩ := h
  -- it is enough that all its pieces are bytes
  have hbytes : (∃ w' : List Char, items = w'.map .byte) → ∀ c ∈ w, Ordinary c := by
    rintro ⟨w', rfl⟩
    rw [decode_bytes] at hw
    rw [← hw]
    exact hitems.ordinary
  have hafterSuffix : '"' :: ',' :: '"' :: after <:+
      before ++ '"' :: (w ++ '"' :: ',' :: '"' :: after) :=
    (List.suffix_append w _).trans ((List.suffix_cons _ _).trans (List.suffix_append before _))
  rcases List.suffix_or_suffix_of_suffix ht hafterSuffix with hend | hend
  · -- behind the text
    refine hbytes (hitems.exists_bytes fun hmem => hafter ?_)
    exact hend.subset (List.takeWhile_subset _ hmem)
  -- before the text, from its opening quote on at the latest
  have houter : ∀ p, t = p ++ '"' :: (w ++ '"' :: ',' :: '"' :: after) → ∀ c ∈ w, Ordinary c := by
    rintro p rfl
    obtain ⟨x, hx⟩ := ht
    rw [← List.append_assoc] at hx
    refine hbytes (hitems.exists_bytes fun hmem => hbefore ?_)
    rw [← List.append_cancel_right hx]
    exact List.mem_append_right x (mem_of_mem_takeWhile_append hmem)
  rcases List.suffix_or_suffix_of_suffix ht (List.suffix_append before _) with hin | ⟨p, hp⟩
  · rcases List.suffix_cons_iff.mp hin with rfl | ⟨x, hx⟩
    · exact houter [] rfl
    · -- in the text
      obtain ⟨w', rfl⟩ := hend
      rw [← List.append_assoc] at hx
      have hsplit : x ++ w' = w := List.append_cancel_right hx
      rcases hitems.size_le with hle | ⟨⟨items', rfl⟩, hlast⟩
      · obtain ⟨hdecode, hall⟩ := length_decode_le items
        have hshort := congrArg List.length hsplit
        rw [List.length_append] at hshort
        rw [hw] at hdecode hall
        exact hbytes (hall (by omega))
      · rw [decode_append_byte] at hw
        have hbackslash : w.getLast? = some '\\' := by
          rw [← hsplit, List.getLast?_append, hlast]
          rfl
        rw [← hw, List.getLast?_concat] at hbackslash
        exact absurd hbackslash (by decide)
  · exact houter p hp.symm

/-! ## Objects of literals made of texts -/

/-- A text that is a string literal with quotes around it. -/
structure Plain (w : List Char) : Prop where
  utf8 : Utf8.Valid w
  ordinary : ∀ c ∈ w, Ordinary c

/-- A member made of a name and a text. -/
def memberText (m : List Char × List Char) : List Char :=
  '"' :: m.1 ++ '"' :: ':' :: '"' :: m.2 ++ ['"']

/-- An object made of names and texts. -/
def objectText (m : List Char × List Char) (ms : List (List Char × List Char)) : List Char :=
  '{' :: memberText m ++ ms.flatMap (fun m => ',' :: memberText m) ++ ['}']

/-- The member of the object. -/
def stringMember (m : List Char × List Char) : List Char × Value := (m.1, .string m.2)

lemma reads_memberText {m : List Char × List Char} (hname : ∀ c ∈ m.1, Ordinary c)
    (htext : ∀ c ∈ m.2, Ordinary c) (rest : List Char) :
    Reads (memberText m ++ rest) (.member m.1 (.string m.2)) rest := by
  have hvalue := Reads.string (readsItems_bytes htext rest)
  have hmember := Reads.member (.refl _) (readsItems_bytes hname _) (.refl _) (.refl _) hvalue
  rw [decode_bytes, decode_bytes] at hmember
  simpa [memberText] using hmember

lemma reads_membersText {m : List Char × List Char} {ms : List (List Char × List Char)}
    (hms : ∀ m' ∈ m :: ms, (∀ c ∈ m'.1, Ordinary c) ∧ ∀ c ∈ m'.2, Ordinary c)
    (rest : List Char) :
    Reads (memberText m ++ ms.flatMap (fun m => ',' :: memberText m) ++ '}' :: rest)
      (.members ((m :: ms).map stringMember)) rest := by
  obtain ⟨hname, htext⟩ := hms m List.mem_cons_self
  induction ms generalizing m with
  | nil =>
    rw [List.flatMap_nil, List.append_nil]
    exact .lastMember (reads_memberText hname htext _) (.refl _)
  | cons m' ms ih =>
    have htail : ∀ n ∈ m' :: ms, (∀ c ∈ n.1, Ordinary c) ∧ ∀ c ∈ n.2, Ordinary c :=
      fun n hn => hms n (List.mem_cons_of_mem m hn)
    obtain ⟨hname', htext'⟩ := htail m' List.mem_cons_self
    have hrest := ih htail hname' htext'
    rw [List.flatMap_cons, List.append_assoc, List.append_assoc, List.cons_append,
      ← List.append_assoc]
    exact .consMember (reads_memberText hname htext _) (.refl _) hrest

/-- An object of texts that are literals is read as it was meant. -/
theorem denotes_objectText {m : List Char × List Char} {ms : List (List Char × List Char)}
    (hutf8 : Utf8.Valid (objectText m ms))
    (hms : ∀ m' ∈ m :: ms, (∀ c ∈ m'.1, Ordinary c) ∧ ∀ c ∈ m'.2, Ordinary c) :
    Denotes (objectText m ms) (.object ((m :: ms).map stringMember)) :=
  ⟨hutf8, _, [], .refl _, .object (reads_membersText hms []), .refl []⟩

end JsonText
