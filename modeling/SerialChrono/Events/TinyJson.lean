import SerialChrono.Events.Json

/-!
# The JSON parser (`tiny-json.c`)

`json_create` parses a text in place.  A pointer into the text is modelled by what is left of
it, and NULL by `none`, or by an error with its reason where the parser gives up.  The parser
keeps no stack: an object or array that is still open is linked to the one around it through
its `sibling` pointer.  Here the open ones are a list, innermost first, each with the properties
read so far, newest first.

Every property takes a node from a pool of fixed size.  `parse_events` makes the pool as large
as the number of colons and opening brackets in the text; `nodes_le_tokenCount` says that this
is enough for a text without plain values in arrays.
-/

namespace SerialChrono

open CText

/-- The nodes `parse_events` makes room for. -/
def tokenCount (jsonStr : CString) : ℕ :=
  jsonStr.countP fun c => c == ':' || c == '[' || c == '{'

namespace TinyJson

/-! ## Characters -/

def isOneOfThem (ch : Char) (set : CString) : Bool := set.contains ch

/-- The characters that define a blank. -/
def blank : CString := " \n\r\t\x0c".toList

/-- The characters that define the end of an array or an object. -/
def endofblock : CString := "\x7d]".toList

/-- The rest of the text from the first character that is not a blank. -/
def goBlank : CString → Option CString
  | [] => none
  | c :: s => if isOneOfThem c blank then goBlank s else some (c :: s)

/-- The rest of the text from the first character that is not a digit. -/
def goNum : CString → Option CString
  | [] => none
  | c :: s => if c.isDigit then goNum s else some (c :: s)

/-- `isdigit(*ptr)`. -/
def isDigitAt : (ptr : CString) → Bool
  | [] => false
  | c :: _ => c.isDigit

/-- The character at the pointer ends a primitive value. -/
def isEndOfPrimitive : (ptr : CString) → Bool
  | [] => false
  | c :: _ => c == ',' || isOneOfThem c blank || isOneOfThem c endofblock

/-- Goes past the character behind a primitive, unless it closes a block. -/
def setToNull : (ch : CString) → CString
  | [] => []
  | c :: s => if isOneOfThem c endofblock then c :: s else s

/-! ## Values -/

/-- The character an escape stands for. -/
def getEscape : Char → Option Char
  | '"' => some '"'
  | '\\' => some '\\'
  | '/' => some '/'
  | 'b' => some '\x08'
  | 'f' => some '\x0c'
  | 'n' => some '\n'
  | 'r' => some '\r'
  | 't' => some '\t'
  | _ => none

/-- `isxdigit`. -/
def isXDigit (c : Char) : Bool :=
  c.isDigit || ('a' ≤ c && c ≤ 'f') || ('A' ≤ c && c ≤ 'F')

/-- The text up to the closing quote, with its escapes replaced, and the rest.  A code point
becomes a question mark. -/
def parseString : (str : CString) → Option (CString × CString)
  | [] => none
  | head :: str =>
    if head < ' ' then none
    else if head = '"' then some ([], str)
    else if head = '\\' then
      match str with
      | 'u' :: c₁ :: c₂ :: c₃ :: c₄ :: str =>
        if isXDigit c₁ && isXDigit c₂ && isXDigit c₃ && isXDigit c₄ then
          (parseString str).map fun r => ('?' :: r.1, r.2)
        else none
      | c :: str =>
        match getEscape c with
        | none => none
        | some esc => (parseString str).map fun r => (esc :: r.1, r.2)
      | [] => none
    else (parseString str).map fun r => (head :: r.1, r.2)

/-- The name of a property and the pointer to its value, from the quote before the name. -/
def propertyName (ptr : CString) : Option (CString × CString) := do
  let (name, ptr) ← parseString ptr.tail
  let ptr ← goBlank ptr
  match ptr with
  | ':' :: ptr => (goBlank ptr).map fun ptr => (name, ptr)
  | _ => none

/-- The value of a text and the rest, from the quote before it. -/
def textValue (ptr : CString) : Option (CString × CString) := parseString ptr.tail

/-- The rest of the text behind `str`, if it begins so. -/
def checkStr : (ptr str : CString) → Option CString
  | ptr, [] => some ptr
  | c :: ptr, d :: str => if c = d then checkStr ptr str else none
  | [], _ :: _ => none

def primitiveValue (ptr value : CString) : Option (CString × CString) :=
  match checkStr ptr value with
  | none => none
  | some ptr => if isEndOfPrimitive ptr then some (value, setToNull ptr) else none

def expValue (ptr : CString) : Option CString :=
  let ptr := match ptr with
    | '-' :: ptr | '+' :: ptr => ptr
    | ptr => ptr
  if isDigitAt ptr then goNum ptr.tail else none

def fraqValue (ptr : CString) : Option CString :=
  if isDigitAt ptr then goNum ptr.tail else none

/-- The part of a number before the point. -/
def intPart (ptr : CString) : Option CString :=
  let ptr := match ptr with
    | '-' :: ptr => ptr
    | ptr => ptr
  match ptr with
  | [] => none
  | c :: rest =>
    if !c.isDigit then none
    else if c ≠ '0' then goNum (c :: rest)
    else if isDigitAt rest then none
    else some rest

/-- The part from the point on, and whether the number is an integer so far. -/
def pointPart (ptr : CString) : Option (CString × Bool) :=
  match ptr with
  | '.' :: ptr => (fraqValue ptr).map fun ptr => (ptr, false)
  | ptr => some (ptr, true)

/-- The exponent, likewise. -/
def exponentPart (ptr : CString) (integer : Bool) : Option (CString × Bool) :=
  match ptr with
  | 'e' :: ptr | 'E' :: ptr => (expValue ptr).map fun ptr => (ptr, false)
  | ptr => some (ptr, integer)

/-- An integer of 64 bits, by its text. -/
def fitsInt64 (value : CString) : Bool :=
  let threshold :=
    if value.head? = some '-' then "-9223372036854775808".toList else "9223372036854775807".toList
  value.length < threshold.length ||
    (value.length == threshold.length && !decide (threshold < value))

/-- A number and the rest. -/
def numValue (value : CString) : Option (CString × CString) := do
  let ptr ← intPart value
  let (ptr, integer) ← pointPart ptr
  let (ptr, integer) ← exponentPart ptr integer
  let text := value.take (value.length - ptr.length)
  if isEndOfPrimitive ptr && (!integer || fitsInt64 text) then some (text, setToNull ptr)
  else none

/-- The switch on the first character of a value that is neither object nor array. -/
def plainValue (ptr : CString) : Option (CString × CString) :=
  match ptr with
  | '"' :: _ => textValue ptr
  | 't' :: _ => primitiveValue ptr "true".toList
  | 'f' :: _ => primitiveValue ptr "false".toList
  | 'n' :: _ => primitiveValue ptr "null".toList
  | _ => numValue ptr

/-! ## Objects and arrays -/

/-- An object or array that is still open. -/
inductive Open
  | obj (properties : List (CString × Json))
  | arr (items : List Json)

namespace Open

def endchar : Open → Char
  | .obj _ => '\x7d'
  | .arr _ => ']'

/-- The name of the next property, none in an array, and the pointer to its value. -/
def nextName (o : Open) (ptr : CString) : Option (CString × CString) :=
  match o with
  | .arr _ => some ([], ptr)
  | .obj _ => if ptr.head? = some '"' then propertyName ptr else none

def add (o : Open) (name : CString) (property : Json) : Open :=
  match o with
  | .obj properties => .obj ((name, property) :: properties)
  | .arr items => .arr (property :: items)

def close : Open → Json
  | .obj properties => .obj properties.reverse
  | .arr items => .arr items.reverse

end Open

/-- Why the parser gives up.  `fuel` is for the model alone. -/
inductive Failure
  | malformed | nodes | fuel
  deriving DecidableEq, Repr

/-- The variables of the loop of `objValue`. -/
structure State where
  ptr : CString
  /-- The innermost block. -/
  obj : Open
  /-- The blocks around it, each with the name of the property it is waiting for. -/
  parents : List (Open × CString)
  nextFree : ℕ

/-- What a round of the loop leads to. -/
inductive Outcome
  | next (s : State)
  | done (root : Json)
  | fail (reason : Failure)

/-- The part of a round that reads a property into its node. -/
def property (s : State) (ptr : CString) : Outcome :=
  match s.obj.nextName ptr with
  | none => .fail .malformed
  | some (name, '\x7b' :: ptr) =>
    .next ⟨ptr, .obj [], (s.obj, name) :: s.parents, s.nextFree + 1⟩
  | some (name, '[' :: ptr) =>
    .next ⟨ptr, .arr [], (s.obj, name) :: s.parents, s.nextFree + 1⟩
  | some (name, ptr) =>
    match plainValue ptr with
    | none => .fail .malformed
    | some (text, ptr) => .next ⟨ptr, s.obj.add name (.value text), s.parents, s.nextFree + 1⟩

/-- A round of the loop, with a pool of `qty` nodes. -/
def objStep (qty : ℕ) (s : State) : Outcome :=
  match goBlank s.ptr with
  | none | some [] => .fail .malformed
  | some (c :: ptr) =>
    if c = ',' then .next { s with ptr }
    else if c = s.obj.endchar then
      match s.parents with
      | [] => .done s.obj.close
      | (parent, name) :: parents =>
        .next ⟨ptr, parent.add name s.obj.close, parents, s.nextFree⟩
    else if qty ≤ s.nextFree then .fail .nodes
    else property s (c :: ptr)

/-- The loop of `objValue`, at most `fuel` times round: the root, and the nodes taken. -/
def objValue (qty : ℕ) : (fuel : ℕ) → State → Except Failure (Json × ℕ)
  | 0, _ => .error .fuel
  | fuel + 1, s =>
    match objStep qty s with
    | .next s' => objValue qty fuel s'
    | .done root => .ok (root, s.nextFree)
    | .fail reason => .error reason

/-- `json_create`, with the number of nodes taken. -/
def create (str : CString) (qty : ℕ) : Except Failure (Json × ℕ) :=
  match goBlank str with
  | some ('\x7b' :: ptr) => objValue qty (ptr.length + 1) ⟨ptr, .obj [], [], 1⟩
  | _ => .error .malformed

/-- `json_create` as its callers see it. -/
def jsonCreate : JsonCreate := fun text qty => ((create text qty).toOption).map Prod.fst

/-! ## What is left of the text -/

lemma goBlank_suffix {ptr rest : CString} (h : goBlank ptr = some rest) : rest <:+ ptr := by
  induction ptr with
  | nil => cases h
  | cons c s ih =>
    unfold goBlank at h
    split_ifs at h
    · exact (ih h).trans (List.suffix_cons c s)
    · cases h
      exact List.suffix_refl _

lemma goNum_suffix {ptr rest : CString} (h : goNum ptr = some rest) : rest <:+ ptr := by
  induction ptr with
  | nil => cases h
  | cons c s ih =>
    unfold goNum at h
    split_ifs at h
    · exact (ih h).trans (List.suffix_cons c s)
    · cases h
      exact List.suffix_refl _

lemma setToNull_suffix (ptr : CString) : setToNull ptr <:+ ptr := by
  cases ptr with
  | nil => exact List.suffix_refl _
  | cons c s =>
    rw [setToNull]
    split_ifs
    · exact List.suffix_refl _
    · exact List.suffix_cons c s

lemma checkStr_suffix {ptr str rest : CString} (h : checkStr ptr str = some rest) :
    ptr = str ++ rest := by
  induction str generalizing ptr with
  | nil =>
    rw [checkStr] at h
    cases h
    rfl
  | cons d str ih =>
    cases ptr with
    | nil => cases h
    | cons c ptr =>
      rw [checkStr] at h
      split_ifs at h with hc
      rw [hc, ih h, List.cons_append]

/-- Something of the text has been read. -/
structure Behind (rest ptr : CString) : Prop where
  suffix : rest <:+ ptr
  length : rest.length < ptr.length

lemma behind_cons (c : Char) (s : CString) : Behind s (c :: s) :=
  ⟨List.suffix_cons c s, Nat.lt_succ_self _⟩

lemma Behind.of_suffix {rest mid ptr : CString} (h : Behind mid ptr) (hrest : rest <:+ mid) :
    Behind rest ptr :=
  ⟨hrest.trans h.suffix, lt_of_le_of_lt hrest.length_le h.length⟩

lemma Behind.trans_suffix {rest mid ptr : CString} (h : Behind rest mid) (hmid : mid <:+ ptr) :
    Behind rest ptr :=
  ⟨h.suffix.trans hmid, lt_of_lt_of_le h.length hmid.length_le⟩

lemma parseString_behind {str : CString} {r : CString × CString}
    (h : parseString str = some r) : Behind r.2 str := by
  fun_induction parseString str generalizing r with
  | case1 | case2 | case5 | case6 | case8 => cases h
  | case3 =>
    cases h
    exact behind_cons _ _
  | case4 c₁ c₂ c₃ c₄ str hxdigit hctl hquote ih =>
    obtain ⟨r', hr', rfl⟩ := Option.map_eq_some_iff.mp h
    exact (ih hr').trans_suffix ⟨['\\', 'u', c₁, c₂, c₃, c₄], rfl⟩
  | case7 c str hu esc hesc hctl hquote ih =>
    obtain ⟨r', hr', rfl⟩ := Option.map_eq_some_iff.mp h
    exact (ih hr').trans_suffix ⟨['\\', c], rfl⟩
  | case9 c str hctl hquote hescape ih =>
    obtain ⟨r', hr', rfl⟩ := Option.map_eq_some_iff.mp h
    exact (ih hr').trans_suffix (List.suffix_cons c str)

lemma primitiveValue_behind {ptr value : CString} {r : CString × CString} (hvalue : value ≠ [])
    (h : primitiveValue ptr value = some r) : Behind r.2 ptr := by
  unfold primitiveValue at h
  split at h
  · cases h
  · next rest hrest =>
    split_ifs at h
    cases h
    rw [checkStr_suffix hrest]
    have hrest : Behind rest (value ++ rest) := by
      refine ⟨List.suffix_append _ _, ?_⟩
      have := List.length_pos_iff.mpr hvalue
      rw [List.length_append]
      omega
    exact hrest.of_suffix (setToNull_suffix rest)

lemma fraqValue_suffix {ptr rest : CString} (h : fraqValue ptr = some rest) : rest <:+ ptr := by
  unfold fraqValue at h
  split_ifs at h
  exact (goNum_suffix h).trans (List.tail_suffix ptr)

lemma expValue_suffix {ptr rest : CString} (h : expValue ptr = some rest) : rest <:+ ptr := by
  unfold expValue at h
  split at h
  · exact (fraqValue_suffix h).trans (List.suffix_cons _ _)
  · exact (fraqValue_suffix h).trans (List.suffix_cons _ _)
  · exact fraqValue_suffix h

lemma intPart_behind {ptr rest : CString} (h : intPart ptr = some rest) : Behind rest ptr := by
  have hunsigned : ∀ ptr : CString, (match ptr with
      | [] => none
      | c :: rest =>
        if !c.isDigit then none
        else if c ≠ '0' then goNum (c :: rest)
        else if isDigitAt rest then none
        else some rest) = some rest → Behind rest ptr := by
    intro ptr h
    cases ptr with
    | nil => cases h
    | cons c s =>
      dsimp only at h
      split_ifs at h with hdigit hzero
      · have hc : c.isDigit = true := by simpa using hdigit
        rw [goNum, if_pos hc] at h
        exact (behind_cons c s).of_suffix (goNum_suffix h)
      · cases h
        exact behind_cons c _
  unfold intPart at h
  split at h
  · exact (hunsigned _ h).trans_suffix (List.suffix_cons _ _)
  · exact hunsigned _ h

lemma pointPart_suffix {ptr : CString} {r : CString × Bool} (h : pointPart ptr = some r) :
    r.1 <:+ ptr := by
  unfold pointPart at h
  split at h
  · obtain ⟨rest, hrest, rfl⟩ := Option.map_eq_some_iff.mp h
    exact (fraqValue_suffix hrest).trans (List.suffix_cons _ _)
  · cases h
    exact List.suffix_refl _

lemma exponentPart_suffix {ptr : CString} {integer : Bool} {r : CString × Bool}
    (h : exponentPart ptr integer = some r) : r.1 <:+ ptr := by
  unfold exponentPart at h
  split at h
  · obtain ⟨rest, hrest, rfl⟩ := Option.map_eq_some_iff.mp h
    exact (expValue_suffix hrest).trans (List.suffix_cons _ _)
  · obtain ⟨rest, hrest, rfl⟩ := Option.map_eq_some_iff.mp h
    exact (expValue_suffix hrest).trans (List.suffix_cons _ _)
  · cases h
    exact List.suffix_refl _

lemma numValue_behind {ptr : CString} {r : CString × CString} (h : numValue ptr = some r) :
    Behind r.2 ptr := by
  obtain ⟨mid, hmid, h⟩ := Option.bind_eq_some_iff.mp h
  obtain ⟨⟨frac, integer⟩, hfrac, h⟩ := Option.bind_eq_some_iff.mp h
  obtain ⟨⟨rest, integer'⟩, hrest, h⟩ := Option.bind_eq_some_iff.mp h
  dsimp only at h
  split_ifs at h
  cases h
  have hsuffix := (exponentPart_suffix hrest).trans (pointPart_suffix hfrac)
  exact (intPart_behind hmid).of_suffix ((setToNull_suffix rest).trans hsuffix)

lemma plainValue_behind {ptr : CString} {r : CString × CString} (h : plainValue ptr = some r) :
    Behind r.2 ptr := by
  unfold plainValue at h
  split at h
  · exact (parseString_behind h).trans_suffix (List.tail_suffix _)
  · exact primitiveValue_behind (by decide) h
  · exact primitiveValue_behind (by decide) h
  · exact primitiveValue_behind (by decide) h
  · exact numValue_behind h

/-- A name takes a colon off the text. -/
lemma propertyName_colon {ptr : CString} {r : CString × CString}
    (h : propertyName ptr = some r) : ∃ mid, ':' :: mid <:+ ptr ∧ r.2 <:+ mid := by
  obtain ⟨⟨name, rest⟩, hname, h⟩ := Option.bind_eq_some_iff.mp h
  obtain ⟨mid, hmid, h⟩ := Option.bind_eq_some_iff.mp h
  have hsuffix : mid <:+ ptr := (goBlank_suffix hmid).trans
    ((parseString_behind hname).suffix.trans (List.tail_suffix ptr))
  split at h
  · next mid =>
    obtain ⟨rest, hrest, rfl⟩ := Option.map_eq_some_iff.mp h
    exact ⟨mid, hsuffix, goBlank_suffix hrest⟩
  · cases h

/-! ## What a round does -/

lemma tokenCount_le {rest ptr : CString} (h : rest <:+ ptr) :
    tokenCount rest ≤ tokenCount ptr :=
  h.sublist.countP_le

lemma tokenCount_cons {c : Char} (hc : c ∈ [':', '[', '\x7b']) (rest : CString) :
    tokenCount (c :: rest) = tokenCount rest + 1 := by
  refine List.countP_cons_of_pos ?_
  simpa [or_assoc] using hc

/-- What a round of the loop can do. -/
inductive Round (s : State) : State → Prop
  | separator {ptr : CString} : Behind ptr s.ptr → Round s { s with ptr }
  | close {ptr name : CString} {parent : Open} {parents : List (Open × CString)} :
      Behind ptr s.ptr → s.parents = (parent, name) :: parents →
      Round s ⟨ptr, parent.add name s.obj.close, parents, s.nextFree⟩
  | block {ptr name : CString} {inner : Open} :
      Behind ptr s.ptr → tokenCount ptr + 1 ≤ tokenCount s.ptr →
      Round s ⟨ptr, inner, (s.obj, name) :: s.parents, s.nextFree + 1⟩
  | plain {ptr name text : CString} :
      Behind ptr s.ptr → (∃ items, s.obj = .arr items) ∨ tokenCount ptr + 1 ≤ tokenCount s.ptr →
      Round s ⟨ptr, s.obj.add name (.value text), s.parents, s.nextFree + 1⟩

/-- The value of a property lies behind its name, and in an object behind a colon. -/
lemma nextName_spec {obj : Open} {ptr : CString} {r : CString × CString}
    (h : obj.nextName ptr = some r) :
    r.2 <:+ ptr ∧ ((∃ items, obj = .arr items) ∨ tokenCount r.2 + 1 ≤ tokenCount ptr) := by
  cases obj with
  | arr items =>
    cases h
    exact ⟨List.suffix_refl _, .inl ⟨items, rfl⟩⟩
  | obj properties =>
    unfold Open.nextName at h
    dsimp only at h
    split_ifs at h
    obtain ⟨mid, hmid, hrest⟩ := propertyName_colon h
    refine ⟨hrest.trans ((List.suffix_cons ':' mid).trans hmid), .inr ?_⟩
    calc tokenCount r.2 + 1 ≤ tokenCount mid + 1 := Nat.succ_le_succ (tokenCount_le hrest)
      _ = tokenCount (':' :: mid) := (tokenCount_cons (by simp) mid).symm
      _ ≤ tokenCount ptr := tokenCount_le hmid

lemma property_next {s s' : State} {ptr : CString} (hptr : ptr <:+ s.ptr)
    (h : property s ptr = .next s') : Round s s' := by
  -- a block takes its bracket off the text
  have hblock : ∀ {name rest : CString} {c : Char}, s.obj.nextName ptr = some (name, c :: rest) →
      c ∈ [':', '[', '\x7b'] → Behind rest s.ptr ∧ tokenCount rest + 1 ≤ tokenCount s.ptr := by
    intro name rest c hname hc
    have hsuffix := (nextName_spec hname).1.trans hptr
    refine ⟨(behind_cons c rest).trans_suffix hsuffix, ?_⟩
    rw [← tokenCount_cons hc]
    exact tokenCount_le hsuffix
  unfold property at h
  split at h
  · cases h
  · next hname =>
    cases h
    obtain ⟨hbehind, htokens⟩ := hblock hname (by simp)
    exact .block hbehind htokens
  · next hname =>
    cases h
    obtain ⟨hbehind, htokens⟩ := hblock hname (by simp)
    exact .block hbehind htokens
  · next name value _ _ hname =>
    split at h
    · cases h
    · next text rest hvalue =>
      cases h
      obtain ⟨hsuffix, harray⟩ := nextName_spec hname
      have hbehind := plainValue_behind hvalue
      refine .plain (hbehind.trans_suffix (hsuffix.trans hptr)) (harray.imp_right fun htokens => ?_)
      calc tokenCount rest + 1 ≤ tokenCount value + 1 :=
            Nat.succ_le_succ (tokenCount_le hbehind.suffix)
        _ ≤ tokenCount ptr := htokens
        _ ≤ tokenCount s.ptr := tokenCount_le hptr

lemma objStep_next {qty : ℕ} {s s' : State} (h : objStep qty s = .next s') : Round s s' := by
  unfold objStep at h
  split at h
  · cases h
  · cases h
  · next c ptr hblank =>
    have hsuffix := goBlank_suffix hblank
    have hbehind : Behind ptr s.ptr := (behind_cons c ptr).trans_suffix hsuffix
    split_ifs at h
    · cases h
      exact .separator hbehind
    · split at h
      · cases h
      · next parent name parents hparents =>
        cases h
        exact .close hbehind hparents
    · exact property_next hsuffix h

/-- Another pool that has room for the nodes taken so far makes no difference to a round. -/
lemma objStep_congr {qty qty' : ℕ} {s s' : State} (h : objStep qty s = .next s')
    (hroom : s'.nextFree ≤ qty') : objStep qty' s = .next s' := by
  have htaken : ∀ ptr, property s ptr = .next s' → s'.nextFree = s.nextFree + 1 := by
    intro ptr hproperty
    unfold property at hproperty
    split at hproperty
    · cases hproperty
    · cases hproperty
      rfl
    · cases hproperty
      rfl
    · split at hproperty
      · cases hproperty
      · cases hproperty
        rfl
  unfold objStep at h ⊢
  split at h
  · cases h
  · cases h
  · split_ifs at h with hcomma hend hfull
    · rw [if_pos hcomma]
      exact h
    · rw [if_neg hcomma, if_pos hend]
      exact h
    · have hnext := htaken _ h
      rw [if_neg hcomma, if_neg hend, if_neg (by omega)]
      exact h

lemma objStep_done_congr {qty : ℕ} {s : State} {root : Json} (h : objStep qty s = .done root)
    (qty' : ℕ) :
    objStep qty' s = .done root ∧ s.parents = [] ∧ root = s.obj.close := by
  have hproperty : ∀ ptr, property s ptr ≠ .done root := by
    intro ptr hproperty
    unfold property at hproperty
    split at hproperty
    · cases hproperty
    · cases hproperty
    · cases hproperty
    · split at hproperty <;> cases hproperty
  unfold objStep at h ⊢
  split at h
  · cases h
  · cases h
  · split_ifs at h with hcomma hend hfull
    · rw [if_neg hcomma, if_pos hend]
      refine ⟨h, ?_⟩
      split at h
      · next hparents =>
        cases h
        exact ⟨hparents, rfl⟩
      · cases h
    · exact absurd h (hproperty _)

lemma Round.behind {s s' : State} (h : Round s s') : Behind s'.ptr s.ptr := by
  cases h <;> assumption

lemma Round.nextFree_le {s s' : State} (h : Round s s') : s.nextFree ≤ s'.nextFree := by
  cases h <;> simp

/-- The loop ends before its rounds run out. -/
lemma objValue_ne_fuel {qty fuel : ℕ} {s : State} (hfuel : s.ptr.length < fuel) :
    objValue qty fuel s ≠ .error .fuel := by
  have hfail : ∀ s : State, objStep qty s ≠ .fail .fuel := by
    intro s h
    unfold objStep property at h
    repeat' split at h
    all_goals cases h
  induction fuel generalizing s with
  | zero => omega
  | succ fuel ih =>
    unfold objValue
    cases hstep : objStep qty s with
    | next s' =>
      have hbehind := (objStep_next hstep).behind.length
      exact ih (by omega)
    | done root => rintro ⟨⟩
    | fail reason =>
      rintro ⟨⟩
      exact hfail s hstep

/-- Nodes are only ever taken, and another pool does as well if it has room for them. -/
lemma objValue_pool {qty fuel : ℕ} {s : State} {root : Json} {used : ℕ}
    (h : objValue qty fuel s = .ok (root, used)) :
    s.nextFree ≤ used ∧ ∀ qty', used ≤ qty' → objValue qty' fuel s = .ok (root, used) := by
  induction fuel generalizing s with
  | zero => cases h
  | succ fuel ih =>
    unfold objValue at h ⊢
    cases hstep : objStep qty s with
    | next s' =>
      rw [hstep] at h
      obtain ⟨hle, hpool⟩ := ih h
      refine ⟨(objStep_next hstep).nextFree_le.trans hle, fun qty' hqty => ?_⟩
      rw [objStep_congr hstep (hle.trans hqty)]
      exact hpool qty' hqty
    | done root' =>
      rw [hstep] at h
      cases h
      exact ⟨le_rfl, fun qty' _ => by rw [(objStep_done_congr hstep qty').1]⟩
    | fail reason =>
      rw [hstep] at h
      cases h

/-! ## Texts without plain values in arrays -/

/-- Every item of an array in this value is itself an object or an array. -/
inductive BlocksInArrays : Json → Prop
  | value (text : CString) : BlocksInArrays (.value text)
  | obj {properties : List (CString × Json)} :
      (∀ p ∈ properties, BlocksInArrays p.2) → BlocksInArrays (.obj properties)
  | arr {items : List Json} :
      (∀ j ∈ items, BlocksInArrays j) → (∀ j ∈ items, ∀ text, j ≠ .value text) →
      BlocksInArrays (.arr items)

lemma BlocksInArrays.of_obj {properties : List (CString × Json)}
    (h : BlocksInArrays (.obj properties)) : ∀ p ∈ properties, BlocksInArrays p.2 := by
  cases h
  assumption

lemma BlocksInArrays.of_arr {items : List Json} (h : BlocksInArrays (.arr items)) :
    (∀ j ∈ items, BlocksInArrays j) ∧ ∀ j ∈ items, ∀ text, j ≠ .value text := by
  cases h
  exact ⟨by assumption, by assumption⟩

/-- The same of what has been read of a block. -/
def Open.Blocks (o : Open) : Prop := BlocksInArrays o.close

lemma Open.Blocks.of_add {o : Open} {name : CString} {j : Json} (h : (o.add name j).Blocks) :
    o.Blocks ∧ BlocksInArrays j ∧ ((∃ items, o = .arr items) → ∀ text, j ≠ .value text) := by
  cases o with
  | obj properties =>
    have hall := h.of_obj
    simp only [List.reverse_cons, List.forall_mem_append, List.forall_mem_singleton] at hall
    exact ⟨.obj hall.1, hall.2, by rintro ⟨items, ⟨⟩⟩⟩
  | arr items =>
    have hall := h.of_arr
    simp only [List.reverse_cons, List.forall_mem_append, List.forall_mem_singleton] at hall
    obtain ⟨⟨hitems, hj⟩, hvalues, hvalue⟩ := hall
    exact ⟨.arr hitems hvalues, hj, fun _ => hvalue⟩

/-- The blocks that are open hold no plain values in arrays. -/
def State.Blocks (s : State) : Prop := s.obj.Blocks ∧ ∀ p ∈ s.parents, p.1.Blocks

/-- A round after which the open blocks hold no plain values in arrays takes at most as many
nodes as it reads colons and brackets. -/
lemma Round.nodes_le {s s' : State} (h : Round s s') (hs' : s'.Blocks) :
    s.Blocks ∧ s'.nextFree + tokenCount s'.ptr ≤ s.nextFree + tokenCount s.ptr := by
  have htokens := tokenCount_le h.behind.suffix
  cases h with
  | separator _ => exact ⟨hs', Nat.add_le_add_left htokens _⟩
  | close _ hparents =>
    obtain ⟨hparent, hothers⟩ := hs'
    obtain ⟨hparent, hobj, -⟩ := hparent.of_add
    refine ⟨⟨hobj, ?_⟩, Nat.add_le_add_left htokens _⟩
    rw [hparents, List.forall_mem_cons]
    exact ⟨hparent, hothers⟩
  | block _ hbracket =>
    obtain ⟨-, hparents⟩ := hs'
    rw [List.forall_mem_cons] at hparents
    refine ⟨hparents, ?_⟩
    dsimp only
    omega
  | plain _ hcolon =>
    obtain ⟨hobj, hparents⟩ := hs'
    obtain ⟨hobj, -, harray⟩ := hobj.of_add
    refine ⟨⟨hobj, hparents⟩, ?_⟩
    rcases hcolon with hitems | hcolon
    · exact absurd rfl (harray hitems _)
    · dsimp only
      omega

/-- The nodes a run of the loop takes. -/
lemma objValue_nodes_le {qty fuel : ℕ} {s : State} {root : Json} {used : ℕ}
    (h : objValue qty fuel s = .ok (root, used)) (hroot : BlocksInArrays root) :
    s.Blocks ∧ used ≤ s.nextFree + tokenCount s.ptr := by
  induction fuel generalizing s with
  | zero => cases h
  | succ fuel ih =>
    unfold objValue at h
    cases hstep : objStep qty s with
    | next s' =>
      rw [hstep] at h
      obtain ⟨hs', hused⟩ := ih h
      obtain ⟨hs, hround⟩ := (objStep_next hstep).nodes_le hs'
      exact ⟨hs, hused.trans hround⟩
    | done root' =>
      rw [hstep] at h
      cases h
      obtain ⟨-, hparents, hclose⟩ := objStep_done_congr hstep qty
      rw [hclose] at hroot
      refine ⟨⟨hroot, ?_⟩, Nat.le_add_right _ _⟩
      rw [hparents]
      simp
    | fail reason =>
      rw [hstep] at h
      cases h

/-- **The pool of `parse_events`.** For a text that `json_create` can parse with some pool and
that has no plain value in an array, the nodes taken, the root included, are at most the colons
and opening brackets of the text, and a pool of as many nodes gives the same result. -/
theorem nodes_le_tokenCount (text : CString) (qty : ℕ) (root : Json) (used : ℕ)
    (h : create text qty = .ok (root, used)) (hroot : BlocksInArrays root) :
    used ≤ tokenCount text ∧ create text (tokenCount text) = .ok (root, used) := by
  unfold create at h ⊢
  split at h
  · next ptr hblank =>
    obtain ⟨-, hused⟩ := objValue_nodes_le h hroot
    have htokens := tokenCount_le (goBlank_suffix hblank)
    rw [tokenCount_cons (by simp)] at htokens
    have hle : used ≤ tokenCount text := by
      dsimp only at hused
      omega
    exact ⟨hle, (objValue_pool h).2 _ hle⟩
  · cases h

/-- The text of an object with one row, which is empty. -/
def rowsText : CString := "\x7b\"rows\":[\x7b\x7d]\x7d".toList

def rowsTree : Json := .obj [("rows".toList, .arr [.obj []])]

lemma create_rowsText : create rowsText 3 = .ok (rowsTree, 3) := by
  unfold rowsText rowsTree
  simp [create, goBlank, isOneOfThem, blank, objValue, objStep, property, Open.endchar,
    Open.nextName, propertyName, parseString, Open.add, Open.close]

lemma blocksInArrays_rowsTree : BlocksInArrays rowsTree := by
  refine .obj ?_
  rw [List.forall_mem_singleton]
  refine .arr ?_ (by simp)
  rw [List.forall_mem_singleton]
  exact .obj (by simp)

/-- Three nodes, and four colons and brackets. -/
theorem nodes_le_tokenCount_rows :
    3 ≤ tokenCount rowsText ∧ create rowsText (tokenCount rowsText) = .ok (rowsTree, 3) :=
  nodes_le_tokenCount rowsText 3 rowsTree 3 create_rowsText blocksInArrays_rowsTree

/-- Every text is parsed in the rounds the model allows. -/
theorem create_ne_fuel (text : CString) (qty : ℕ) : create text qty ≠ .error .fuel := by
  unfold create
  split
  · exact objValue_ne_fuel (Nat.lt_succ_self _)
  · rintro ⟨⟩

end TinyJson

end SerialChrono
