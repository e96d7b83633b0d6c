import SerialChrono.Library.CText

/-!
# Character buffers of C

A buffer of `n` bytes that a program fills from its beginning: stores at an index, `sprintf` with
its terminator, and the text a `%s` or `strlen` finds.  What is beyond the part written so far is
whatever an earlier use has left there; `Begins` speaks only of that part, and each operation
extends it.
-/

namespace CBuffer

open CText

/-- A `char` array of `n` bytes. -/
structure Buffer (n : ℕ) where
  bytes : List Char
  size : bytes.length = n

variable {n : ℕ}

/-- A buffer of zeros, from `calloc` or `memset`. -/
def Buffer.zero (n : ℕ) : Buffer n := ⟨List.replicate n '\x00', List.length_replicate⟩

/-- The array that a string is in, with its terminator. -/
def Buffer.ofText (text : CString) : Buffer (text ++ ['\x00']).length :=
  ⟨text ++ ['\x00'], rfl⟩

/-- `memcpy(buffer+i, text, ...)`; nothing is defined past the end. -/
def Buffer.store (b : Buffer n) (i : ℕ) (text : List Char) : Option (Buffer n) :=
  if h : i + text.length ≤ n then
    some ⟨b.bytes.take i ++ text ++ b.bytes.drop (i + text.length), by
      have := b.size
      simp only [List.length_append, List.length_take, List.length_drop]
      omega⟩
  else none

/-- `sprintf(buffer+i, "%s", text)`. -/
def Buffer.print (b : Buffer n) (i : ℕ) (text : CString) : Option (Buffer n) :=
  b.store i (text ++ ['\x00'])

/-- `len += sprintf(buffer+len, "%s", text)` for one text after the other: the buffer, and the
`len` it ends with. -/
def Buffer.printAll (b : Buffer n) : (len : ℕ) → (texts : List CString) → Option (Buffer n × ℕ)
  | len, [] => some (b, len)
  | len, text :: texts => (b.print len text).bind fun b => b.printAll (len + text.length) texts

/-- `buffer[i]` -/
def Buffer.get (b : Buffer n) (i : ℕ) : Option Char := b.bytes[i]?

/-- The text in the buffer, as `%s` writes it and `strlen` counts it. -/
def Buffer.text (b : Buffer n) : CString := cstr b.bytes

/-! ## The part written so far -/

/-- The buffer begins with these bytes. -/
def Buffer.Begins (b : Buffer n) (written : List Char) : Prop := written <+: b.bytes

lemma Buffer.begins_nil (b : Buffer n) : b.Begins [] := List.nil_prefix

/-- A store after the part written so far extends it, whatever was there before. -/
lemma Buffer.store_begins {b : Buffer n} {written : List Char} (h : b.Begins written)
    (text : List Char) (hfits : written.length + text.length ≤ n) :
    ∃ b', b.store written.length text = some b' ∧ b'.Begins (written ++ text) := by
  refine ⟨_, dif_pos hfits, ?_⟩
  have htake : b.bytes.take written.length = written := (List.prefix_iff_eq_take.mp h).symm
  change written ++ text <+: b.bytes.take written.length ++ text ++ _
  rw [htake]
  exact List.prefix_append _ _

lemma Buffer.print_begins {b : Buffer n} {written : List Char} (h : b.Begins written)
    (text : List Char) (hfits : written.length + text.length < n) :
    ∃ b', b.print written.length text = some b' ∧ b'.Begins (written ++ text ++ ['\x00']) := by
  have hroom : written.length + (text ++ ['\x00']).length ≤ n := by
    rw [List.length_append, List.length_singleton]
    omega
  obtain ⟨b', hstore, hbegins⟩ := b.store_begins h (text ++ ['\x00']) hroom
  exact ⟨b', hstore, by rwa [← List.append_assoc] at hbegins⟩

lemma Buffer.Begins.left {b : Buffer n} {xs ys : List Char} (h : b.Begins (xs ++ ys)) :
    b.Begins xs := (List.prefix_append xs ys).trans h

lemma Buffer.get_of_begins {b : Buffer n} {written : List Char} {c : Char}
    (h : b.Begins (written ++ [c])) : b.get written.length = some c := by
  obtain ⟨rest, hrest⟩ := h
  simp [Buffer.get, ← hrest]

/-- The text is what has been written before the first terminator. -/
lemma Buffer.text_of_begins {b : Buffer n} {written : List Char}
    (h : b.Begins (written ++ ['\x00'])) (hnul : '\x00' ∉ written) : b.text = written := by
  obtain ⟨rest, hrest⟩ := h
  rw [Buffer.text, ← hrest, cstr, List.append_assoc, takeWhile_ne_append hnul]
  simp

/-- A terminator ends the text, unless there is one before. -/
lemma Buffer.text_eq_cstr {b : Buffer n} {written : List Char}
    (h : b.Begins (written ++ ['\x00'])) : b.text = cstr written := by
  obtain ⟨rest, hrest⟩ := h
  rw [Buffer.text, ← hrest, List.append_assoc]
  exact takeWhile_ne_append_cons '\x00' written rest

/-- A store further on leaves the part written so far alone. -/
lemma Buffer.Begins.store {b b' : Buffer n} {written text : List Char} {i : ℕ}
    (h : b.Begins written) (hi : written.length ≤ i) (hstore : b.store i text = some b') :
    b'.Begins written := by
  unfold Buffer.store at hstore
  split_ifs at hstore
  cases hstore
  have htake : written <+: b.bytes.take i :=
    List.prefix_take_iff.mpr ⟨h, hi⟩
  exact (htake.trans (List.prefix_append _ _)).trans (List.prefix_append _ _)

/-- Texts printed one after the other stand in the buffer one after the other, with a terminator
after the last. -/
lemma Buffer.printAll_begins {b : Buffer n} {written : List Char} (h : b.Begins written)
    (texts : List CString) (hfits : written.length + texts.flatten.length < n) :
    ∃ b', b.printAll written.length texts = some (b', (written ++ texts.flatten).length) ∧
      b'.Begins (written ++ texts.flatten) ∧
      (texts ≠ [] → b'.Begins (written ++ texts.flatten ++ ['\x00'])) := by
  induction texts generalizing b written with
  | nil =>
    rw [List.flatten_nil, List.append_nil]
    exact ⟨b, rfl, h, fun hne => absurd rfl hne⟩
  | cons text texts ih =>
    rw [List.flatten_cons, List.length_append] at hfits
    obtain ⟨b₁, hprint, hbegins⟩ := b.print_begins h text (by omega)
    obtain ⟨b₂, hrest, hall, hend⟩ := ih hbegins.left (by rw [List.length_append]; omega)
    rw [List.length_append] at hrest
    rw [List.flatten_cons, ← List.append_assoc]
    refine ⟨b₂, ?_, hall, fun _ => ?_⟩
    · rw [Buffer.printAll, hprint, Option.bind_some, hrest]
    · cases texts with
      | nil =>
        obtain rfl : b₁ = b₂ := congrArg Prod.fst (Option.some.inj hrest)
        rwa [List.flatten_nil, List.append_nil]
      | cons next texts => exact hend (List.cons_ne_nil next texts)

lemma Buffer.print_isSome_iff (b : Buffer n) (i : ℕ) (text : CString) :
    (b.print i text).isSome = true ↔ i + text.length < n := by
  have hlength : (text ++ ['\x00']).length = text.length + 1 := List.length_append
  unfold Buffer.print Buffer.store
  split_ifs with hfits
  · exact iff_of_true rfl (by omega)
  · exact iff_of_false Bool.false_ne_true (by omega)

/-- Texts printed one after the other fit exactly if all of them and a terminator do. -/
lemma Buffer.printAll_isSome_iff (b : Buffer n) (len : ℕ) (text : CString)
    (texts : List CString) :
    (b.printAll len (text :: texts)).isSome = true ↔
      len + (text :: texts).flatten.length < n := by
  induction texts generalizing b len text with
  | nil =>
    rw [List.flatten_cons, List.flatten_nil, List.append_nil, ← b.print_isSome_iff]
    cases hprint : b.print len text <;> simp [Buffer.printAll, hprint]
  | cons next texts ih =>
    rw [List.flatten_cons, List.length_append, ← Nat.add_assoc]
    cases hprint : b.print len text with
    | none =>
      have hfull := (b.print_isSome_iff len text).not.mp (by simp [hprint])
      simp only [Buffer.printAll, hprint, Option.bind_none, Option.isSome_none,
        Bool.false_eq_true, false_iff]
      omega
    | some b₁ =>
      rw [Buffer.printAll, hprint, Option.bind_some]
      exact ih b₁ (len + text.length) next

/-- What a buffer printed from its beginning holds. -/
lemma Buffer.text_of_printAll {b b' : Buffer n} {text : CString} {texts : List CString} {len : ℕ}
    (h : b.printAll 0 (text :: texts) = some (b', len))
    (hnul : '\x00' ∉ (text :: texts).flatten) :
    b'.text = (text :: texts).flatten ∧ len = (text :: texts).flatten.length := by
  have hfits := (b.printAll_isSome_iff 0 text texts).mp (Option.isSome_iff_exists.mpr ⟨_, h⟩)
  obtain ⟨b₁, hprint, -, hend⟩ := Buffer.printAll_begins b.begins_nil (text :: texts) hfits
  rw [List.length_nil, h, Option.some.injEq, Prod.mk.injEq] at hprint
  obtain ⟨rfl, rfl⟩ := hprint
  exact ⟨Buffer.text_of_begins (hend (List.cons_ne_nil text texts)) hnul, rfl⟩

/-! ## One byte -/

lemma Buffer.get_at {b : Buffer n} {before after : List Char} {c : Char}
    (h : b.bytes = before ++ c :: after) : b.get before.length = some c := by
  rw [Buffer.get, h, List.getElem?_append_right (Nat.le_refl _), Nat.sub_self,
    List.getElem?_cons_zero]

/-- A byte overwritten. -/
lemma Buffer.store_at {b : Buffer n} {before after : List Char} {c : Char}
    (h : b.bytes = before ++ c :: after) (d : Char) :
    ∃ b', b.store before.length [d] = some b' ∧ b'.bytes = before ++ d :: after := by
  have hfits : before.length + [d].length ≤ n := by
    have hsize := b.size
    rw [h, List.length_append, List.length_cons] at hsize
    rw [List.length_singleton]
    omega
  refine ⟨_, dif_pos hfits, ?_⟩
  have hdrop : b.bytes.drop (before.length + 1) = after := by
    rw [h, List.drop_append, List.drop_of_length_le (by omega), List.nil_append,
      Nat.add_sub_cancel_left, List.drop_one, List.tail_cons]
  change b.bytes.take before.length ++ [d] ++ b.bytes.drop (before.length + 1) = _
  rw [hdrop, h, List.take_left, List.append_assoc, List.singleton_append]

/-! ## Lines -/

/-- `if ((p=strchr(buffer, '\n')) != NULL) *p='\0';` -/
def Buffer.stripNewline (b : Buffer n) : Option (Buffer n) :=
  if '\n' ∈ b.text then b.store (b.text.takeWhile (· ≠ '\n')).length ['\x00'] else some b

/-- What is left is the first line, with its terminator. -/
lemma Buffer.stripNewline_begins {b : Buffer n} {written : List Char}
    (h : b.Begins (written ++ ['\x00'])) :
    ∃ b', b.stripNewline = some b' ∧ b'.Begins (firstLine written ++ ['\x00']) := by
  have hcut : b.Begins (cstr written ++ ['\x00']) := (prefix_cstr_append_nul written).trans h
  unfold Buffer.stripNewline
  rw [Buffer.text_eq_cstr h]
  by_cases hmem : '\n' ∈ cstr written
  · rw [if_pos hmem]
    obtain ⟨line, rest, hsplit, hline⟩ := List.eq_append_cons_of_mem hmem
    have hfirst : firstLine written = line := by
      rw [firstLine, hsplit, takeWhile_ne_append_cons, takeWhile_ne_self hline]
    obtain ⟨after, hafter⟩ := hcut
    have hbytes : b.bytes = line ++ '\n' :: (rest ++ ['\x00'] ++ after) := by
      rw [← hafter, hsplit]
      simp
    obtain ⟨b', hstore, hb'⟩ := Buffer.store_at hbytes '\x00'
    have hlength : (cstr written).takeWhile (· ≠ '\n') = line := hfirst
    refine ⟨b', by rwa [hlength], ?_⟩
    rw [hfirst, Buffer.Begins, hb']
    exact ⟨rest ++ ['\x00'] ++ after, List.append_assoc line ['\x00'] _⟩
  · rw [if_neg hmem, firstLine, takeWhile_ne_self hmem]
    exact ⟨b, rfl, hcut⟩

/-! ## The part still clear -/

/-- From this index on the buffer is as `memset` has left it. -/
def Buffer.ClearFrom (b : Buffer n) (i : ℕ) : Prop :=
  b.bytes.drop i = List.replicate (n - i) '\x00'

lemma Buffer.clearFrom_zero (n i : ℕ) : (Buffer.zero n).ClearFrom i :=
  List.drop_replicate

lemma Buffer.ClearFrom.mono {b : Buffer n} {i j : ℕ} (h : b.ClearFrom i) (hij : i ≤ j) :
    b.ClearFrom j := by
  have hdrop : b.bytes.drop j = (b.bytes.drop i).drop (j - i) := by
    rw [List.drop_drop, Nat.add_sub_cancel' hij]
  rw [Buffer.ClearFrom, hdrop, h, List.drop_replicate]
  congr 1
  omega

lemma Buffer.get_of_clearFrom {b : Buffer n} {i : ℕ} (h : b.ClearFrom i) (hi : i < n) :
    b.get i = some '\x00' := by
  obtain ⟨m, hm⟩ := Nat.exists_eq_add_of_lt hi
  have hfirst : (b.bytes.drop i)[0]? = some '\x00' := by
    rw [h, show n - i = m + 1 by omega, List.replicate_succ, List.getElem?_cons_zero]
  rwa [List.getElem?_drop] at hfirst

/-- A store leaves what is beyond it clear. -/
lemma Buffer.ClearFrom.store {b b' : Buffer n} {i : ℕ} {text : List Char}
    (h : b.ClearFrom (i + text.length)) (hstore : b.store i text = some b') :
    b'.ClearFrom (i + text.length) := by
  unfold Buffer.store at hstore
  split_ifs at hstore with hfits
  cases hstore
  have hlength : (b.bytes.take i ++ text).length = i + text.length := by
    have := b.size
    simp only [List.length_append, List.length_take]
    omega
  rw [Buffer.ClearFrom, List.drop_left' hlength, h]

/-- The clear part terminates the part written before it. -/
lemma Buffer.Begins.terminated {b : Buffer n} {written : List Char} (h : b.Begins written)
    (hclear : b.ClearFrom written.length) (hroom : written.length < n) :
    b.Begins (written ++ ['\x00']) := by
  obtain ⟨rest, hrest⟩ := h
  have hdrop : rest = List.replicate (n - written.length) '\x00' := by
    rw [← hclear, ← hrest, List.drop_left]
  obtain ⟨m, hm⟩ := Nat.exists_eq_add_of_lt hroom
  rw [show n - written.length = m + 1 by omega, List.replicate_succ] at hdrop
  refine ⟨List.replicate m '\x00', ?_⟩
  rw [← hrest, hdrop, List.append_assoc, List.singleton_append]

end CBuffer
