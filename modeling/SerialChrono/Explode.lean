import SerialChrono.Bounds
import SerialChrono.Library.CBuffer

/-!
# Tokenizing in place (`explode`)

`explode` copies the line, overwrites its separators with terminators and leaves in an array of
32 pointers where each token begins; a token is what `%s` finds from there on.  The loop is kept
here with its buffer, its pointers and its count, and `explodeInPlace_holds` says that what it
leaves are the tokens `Tools` gives to main.  The exact split of `explode_split` follows.
-/

namespace SerialChrono

open CText CBuffer

/-! ## The loop -/

/-- What `explode` fills: the working copy, the array `res` of pointers into it, and `*nelem`. -/
structure Exploded (n : ℕ) where
  buff : Buffer n
  res : List (Option ℕ)
  nelem : ℕ

variable {n : ℕ}

/-- `res[*nelem]=from; *nelem=1+*nelem;`, nothing being defined past the end of the array. -/
def Exploded.store (e : Exploded n) (start : ℕ) : Option (Exploded n) :=
  if e.nelem < e.res.length then
    some { e with res := e.res.set e.nelem (some start), nelem := 1 + e.nelem }
  else none

/-- The loop of `explode`, with `from` at `start` and `to` at `pos`, at most `fuel` times
round. -/
def explodeInPlaceLoop (separator : Char) :
    (fuel : ℕ) → (e : Exploded n) → (start pos : ℕ) → Option (Exploded n)
  | 0, _, _, _ => none
  | fuel + 1, e, start, pos =>
    (e.buff.get pos).bind fun c =>
      if c = '\x00' then
        -- end of line: store and return
        e.store start
      else if c ≠ separator then explodeInPlaceLoop separator fuel e start (pos + 1)
      else
        (e.buff.store pos ['\x00']).bind fun buff =>
          ({ e with buff := buff }.store start).bind fun e =>
            if 32 < e.nelem then some e
            else explodeInPlaceLoop separator fuel e (pos + 1) (pos + 1)

/-- `calloc(1+strlen(line))` and `strncpy`: the line with its terminator. -/
def workingCopy (line : CString) : Buffer (line.length + 1) :=
  ⟨line ++ ['\x00'], List.length_append⟩

/-- `explode`, with its working space. -/
def explodeInPlace (line : CString) (separator : Char) : Option (Exploded (line.length + 1)) :=
  explodeInPlaceLoop separator (line.length + 1)
    { buff := workingCopy line, res := List.replicate 32 none, nelem := 0 } 0 0

/-- The text `res[i]` points to. -/
def Exploded.token (e : Exploded n) (i : ℕ) : Option CString :=
  (e.res[i]?.join).map fun start => cstr (e.buff.bytes.drop start)

/-- `*nelem` and the pointers up to it give these tokens. -/
structure Exploded.Holds (e : Exploded n) (tokens : Tokens) : Prop where
  nelem : e.nelem = tokens.length
  token : ∀ i (h : i < tokens.length), e.token i = some tokens[i]

/-! ## What the loop has done -/

/-- Tokens one after the other, each with its terminator. -/
def terminated (tokens : Tokens) : List Char := tokens.flatMap fun token => token ++ ['\x00']

lemma terminated_append (tokens more : Tokens) :
    terminated (tokens ++ more) = terminated tokens ++ terminated more :=
  List.flatMap_append

lemma terminated_cons (token : CString) (tokens : Tokens) :
    terminated (token :: tokens) = token ++ '\x00' :: terminated tokens := by
  simp [terminated]

lemma terminated_singleton (token : CString) : terminated [token] = token ++ ['\x00'] := by
  simp [terminated]

/-- The count and the pointers as the loop leaves them after storing these tokens. -/
structure Exploded.Stored (e : Exploded n) (tokens : Tokens) : Prop where
  nelem : e.nelem = tokens.length
  size : e.res.length = 32
  points : ∀ i < tokens.length, e.res[i]? = some (some (terminated (tokens.take i)).length)

/-- A token that fits is stored after the others. -/
lemma Exploded.Stored.store {e : Exploded n} {tokens : Tokens} (h : e.Stored tokens)
    (hroom : tokens.length < 32) (token : CString) :
    ∃ e', e.store (terminated tokens).length = some e' ∧ e'.buff = e.buff ∧
      e'.Stored (tokens ++ [token]) := by
  have hfits : e.nelem < e.res.length := by
    rw [h.nelem, h.size]
    exact hroom
  refine ⟨_, if_pos hfits, rfl, ?_, ?_, ?_⟩
  · simp only [h.nelem, List.length_append, List.length_singleton]
    omega
  · simp only [List.length_set, h.size]
  · intro i hi
    rw [List.length_append, List.length_singleton] at hi
    rw [List.getElem?_set]
    split_ifs with hlast
    · have hi : i = tokens.length := by rw [← hlast, h.nelem]
      rw [hi, List.take_left]
    · have hbefore : i < tokens.length := by
        rw [h.nelem] at hlast
        omega
      rw [h.points i hbefore, List.take_append_of_le_length (by omega)]

/-- At a separator the token read so far is cut off and stored. -/
lemma Exploded.Stored.cut {e : Exploded n} {tokens : Tokens} (h : e.Stored tokens)
    (hroom : tokens.length < 32) {cur after : CString} {c : Char}
    (hbytes : e.buff.bytes = terminated tokens ++ cur ++ c :: after) :
    ∃ buff e', e.buff.store (terminated tokens ++ cur).length ['\x00'] = some buff ∧
      ({ e with buff } : Exploded n).store (terminated tokens).length = some e' ∧
      e'.Stored (tokens ++ [cur]) ∧
      e'.buff.bytes = terminated (tokens ++ [cur]) ++ after := by
  obtain ⟨buff, hstore, hbuff⟩ := Buffer.store_at hbytes '\x00'
  have hcopied : ({ e with buff } : Exploded n).Stored tokens := ⟨h.nelem, h.size, h.points⟩
  obtain ⟨e', hpointer, hsame, hstored⟩ := hcopied.store hroom cur
  refine ⟨buff, e', hstore, hpointer, hstored, ?_⟩
  rw [hsame, hbuff, terminated_append, terminated_singleton]
  simp

/-- The pointers lead to the tokens when these stand in the buffer with their terminators. -/
lemma Exploded.Stored.holds {e : Exploded n} {tokens : Tokens} (h : e.Stored tokens)
    (hbytes : e.buff.bytes = terminated tokens) (hnul : ∀ token ∈ tokens, '\x00' ∉ token) :
    e.Holds tokens where
  nelem := h.nelem
  token i hi := by
    have hsplit : terminated tokens =
        terminated (tokens.take i) ++
          (tokens[i] ++ '\x00' :: terminated (tokens.drop (i + 1))) := by
      have htokens : tokens.take i ++ (tokens[i] :: tokens.drop (i + 1)) = tokens := by
        rw [← List.drop_eq_getElem_cons hi, List.take_append_drop]
      have hrest : terminated (tokens[i] :: tokens.drop (i + 1)) =
          tokens[i] ++ '\x00' :: terminated (tokens.drop (i + 1)) := terminated_cons _ _
      rw [← hrest, ← terminated_append, htokens]
    rw [Exploded.token, h.points i hi, Option.join_some, Option.map_some, hbytes, hsplit,
      List.drop_left, cstr, takeWhile_ne_append_cons,
      takeWhile_ne_self (hnul _ (List.getElem_mem hi))]

/-- From any point of the line on, `cur` being the token read so far, the loop stores the tokens
left to read. -/
lemma explodeInPlaceLoop_spec {separator : Char} {rest cur : CString} {e : Exploded n}
    {tokens : Tokens} {fuel : ℕ} (h : e.Stored tokens)
    (hbytes : e.buff.bytes = terminated tokens ++ cur ++ rest ++ ['\x00'])
    (hcur : separator ∉ cur) (hnul : '\x00' ∉ rest) (hfuel : rest.length < fuel)
    (hroom : (tokens ++ (cur ++ rest).splitOn separator).length ≤ 32) :
    ∃ e', explodeInPlaceLoop separator fuel e (terminated tokens).length
        (terminated tokens ++ cur).length = some e' ∧
      e'.Stored (tokens ++ (cur ++ rest).splitOn separator) ∧
      e'.buff.bytes = terminated (tokens ++ (cur ++ rest).splitOn separator) := by
  induction rest generalizing cur e tokens fuel with
  | nil =>
    obtain ⟨fuel, rfl⟩ := Nat.exists_eq_add_of_lt hfuel
    rw [List.append_nil, List.splitOn_eq_singleton hcur] at hroom ⊢
    rw [List.append_nil] at hbytes
    have hget := Buffer.get_at hbytes
    rw [List.length_append, List.length_singleton] at hroom
    obtain ⟨e', hstore, hbuff, hstored⟩ := h.store (by omega) cur
    refine ⟨e', ?_, hstored, ?_⟩
    · simp only [explodeInPlaceLoop, hget, Option.bind_some, if_true, hstore]
    · rw [hbuff, hbytes, terminated_append, terminated_singleton, List.append_assoc]
  | cons c rest ih =>
    rw [List.length_cons] at hfuel
    obtain ⟨fuel, rfl⟩ : ∃ m, fuel = m + 1 := ⟨fuel - 1, by omega⟩
    rw [Nat.add_lt_add_iff_right] at hfuel
    rw [List.mem_cons, not_or] at hnul
    have hat : e.buff.bytes = (terminated tokens ++ cur) ++ c :: (rest ++ ['\x00']) := by
      rw [hbytes]
      simp
    have hget := Buffer.get_at hat
    by_cases hc : c = separator
    · -- the token read so far ends here
      subst hc
      have hsplit := List.splitOn_append_cons_self_of_not_mem hcur rest
      rw [hsplit] at hroom ⊢
      have hlater : (rest.splitOn c).length ≠ 0 := by
        rw [Ne, List.length_eq_zero_iff]
        exact List.splitOn_ne_nil c rest
      rw [List.length_append, List.length_cons] at hroom
      obtain ⟨buff, e₁, hstore, hpointer, hstored, hbuff⟩ := h.cut (by omega) hat
      have hcount := hstored.nelem
      rw [List.length_append, List.length_singleton] at hcount
      have hbytes₁ :
          e₁.buff.bytes = terminated (tokens ++ [cur]) ++ [] ++ rest ++ ['\x00'] := by
        rw [hbuff]
        simp
      obtain ⟨e', hloop, hrest⟩ := ih hstored hbytes₁ List.not_mem_nil hnul.2 hfuel (by
        rw [List.nil_append, List.append_assoc, List.length_append]
        exact hroom)
      have hpos : (terminated tokens ++ cur).length + 1 =
          (terminated (tokens ++ [cur])).length := by
        rw [terminated_append, terminated_singleton, List.length_append, List.length_append,
          List.length_append, List.length_singleton, Nat.add_assoc]
      rw [List.append_nil] at hloop
      rw [List.nil_append, List.append_assoc] at hrest
      refine ⟨e', ?_, hrest⟩
      rw [explodeInPlaceLoop, hget, Option.bind_some, if_neg (Ne.symm hnul.1),
        if_neg (not_not.mpr rfl), hstore, Option.bind_some, hpointer, Option.bind_some,
        if_neg (by omega), hpos, hloop]
    · have hline : cur ++ c :: rest = (cur ++ [c]) ++ rest := by simp
      rw [hline] at hroom ⊢
      have hbytes' : e.buff.bytes = terminated tokens ++ (cur ++ [c]) ++ rest ++ ['\x00'] := by
        rw [hbytes]
        simp
      have hcur' : separator ∉ cur ++ [c] := by simp [hcur, Ne.symm hc]
      have hpos : (terminated tokens ++ cur).length + 1 =
          (terminated tokens ++ (cur ++ [c])).length := by
        rw [← List.append_assoc, List.length_append, List.length_append, List.length_append,
          List.length_singleton]
      obtain ⟨e', hloop, hrest⟩ := ih h hbytes' hcur' hnul.2 hfuel hroom
      refine ⟨e', ?_, hrest⟩
      rw [explodeInPlaceLoop, hget, Option.bind_some, if_neg (Ne.symm hnul.1), if_pos hc,
        hpos, hloop]

/-! ## The split -/

lemma nul_notMem_splitOn {separator : Char} {line : CString} (h : '\x00' ∉ line) :
    ∀ token ∈ line.splitOn separator, '\x00' ∉ token := by
  intro token htoken hnul
  obtain ⟨head, tail, hsplit⟩ := List.exists_cons_of_ne_nil (List.splitOn_ne_nil separator line)
  have hline : [separator].intercalate (line.splitOn separator) = line :=
    List.intercalate_splitOn separator
  rw [hsplit, intercalate_eq_append_flatMap] at hline
  rw [hsplit] at htoken
  rw [← hline, List.mem_append, not_or] at h
  rcases List.mem_cons.mp htoken with rfl | htail
  · exact h.1 hnul
  · exact h.2 (List.mem_flatMap.mpr ⟨token, htail, List.mem_cons_of_mem separator hnul⟩)

/-- `explode` leaves the tokens of the line in its working space. -/
lemma explodeInPlace_holds {line : CString} (hline : '\x00' ∉ line) {separator : Char}
    (hcount : line.count separator ≤ 31) :
    ∃ e, explodeInPlace line separator = some e ∧ e.Holds (line.splitOn separator) := by
  have hfew : (line.splitOn separator).length ≤ 32 := by
    rw [length_splitOn]
    omega
  -- nothing is stored yet, and nothing is read of the first token
  obtain ⟨e, hloop, hstored, hbytes⟩ := @explodeInPlaceLoop_spec _ separator line []
    { buff := workingCopy line, res := List.replicate 32 none, nelem := 0 } [] _
    ⟨rfl, List.length_replicate, by simp⟩ rfl List.not_mem_nil hline
    (Nat.lt_succ_self line.length) hfew
  exact ⟨e, hloop, hstored.holds hbytes (nul_notMem_splitOn hline)⟩

/-- **`explode` is an exact split.** On every line with at most 31 separators the tokens it
returns, `*nelem` of them, have no separator in them, there is one more of them than separators,
and joined with the separator they are the line; main works on the same tokens. -/
theorem explode_split (line : CString) (hline : '\x00' ∉ line) (separator : Char)
    (hcount : line.count separator ≤ 31) :
    ∃ e tokens, explodeInPlace line separator = some e ∧ e.Holds tokens ∧
      explode line separator = some tokens ∧
      (∀ token ∈ tokens, separator ∉ token) ∧
      e.nelem = line.count separator + 1 ∧
      [separator].intercalate tokens = line := by
  obtain ⟨e, hexplode, hholds⟩ := explodeInPlace_holds hline hcount
  have hlength := length_splitOn separator line
  refine ⟨e, line.splitOn separator, hexplode, hholds, ?_, separator_notMem_splitOn, ?_,
    List.intercalate_splitOn separator⟩
  · rw [explode_eq, if_pos (by omega)]
  · rw [hholds.nelem, hlength]

/-- Two separators side by side and one at the end of the line. -/
theorem explode_split_empty_tokens :
    ∃ e tokens, explodeInPlace "a  b ".toList ' ' = some e ∧ e.Holds tokens ∧
      explode "a  b ".toList ' ' = some tokens ∧
      (∀ token ∈ tokens, ' ' ∉ token) ∧
      e.nelem = "a  b ".toList.count ' ' + 1 ∧
      [' '].intercalate tokens = "a  b ".toList :=
  explode_split _ (by decide) ' ' (by decide)

end SerialChrono
