import SerialChrono.Events.JsonGrammar

/-!
# What `json_create` makes of a text (`tiny-json.c`)

The loop of `objValue` has no recursion: it goes up and down through the blocks that are open.
`create_eq_ok_iff` says that it accepts exactly the texts of the grammar, gives the tree they stand
for, and takes one node for each value, if there are as many in the pool.  What is behind the last
bracket is not looked at.

From left to right the invariant is `Reading`: the text so far is that of the open blocks, each up to
the value it waits for.  From right to left a text of the grammar is read back to front: `Ends` says
what the loop makes of the rest, and each value before it is one round more.
-/

namespace SerialChrono

open CText

namespace TinyJson

/-! ## Blocks -/

/-- The block before anything has been read. -/
def Open.empty : Open → Open
  | .obj _ => .obj []
  | .arr _ => .arr []

/-- The bracket that opens a block. -/
def Open.opening : Open → Char
  | .obj _ => '\x7b'
  | .arr _ => '['

/-- What stands before a value: in an object its name and a colon, in an array nothing. -/
inductive Label : Open → CString → CString → Prop
  | item {items : List Json} : Label (.arr items) [] []
  | property {properties : List (CString × Json)} {body name gap gap' : CString} :
      StringBody body name → (∀ c ∈ gap, IsBlank c) → (∀ c ∈ gap', IsBlank c) →
      Label (.obj properties) ('"' :: (body ++ '"' :: (gap ++ ':' :: gap'))) name

/-- A value that is no block, its text and whether something else must end it. -/
inductive Plain : CString → CString → Bool → Prop
  | string {body s : CString} : StringBody body s → Plain ('"' :: (body ++ ['"'])) s false
  | primitive {text : CString} : Primitive text → Plain text text true

/-- The text behind an opening bracket, the block it is read as, its nodes, and whether the last
value has not been ended yet. -/
inductive Inside : CString → Open → ℕ → Bool → Prop
  | nothing (o : Open) : Inside [] o.empty 0 false
  | between {body : CString} {o : Open} {n : ℕ} {pending : Bool} {c : Char} :
      Inside body o n pending → IsBetween c → Inside (body ++ [c]) o n false
  | plain {body label name text value : CString} {o : Open} {n : ℕ} {pending : Bool} :
      Inside body o n false → Label o label name → Plain text value pending →
      Inside (body ++ (label ++ text)) (o.add name (.value value)) (n + 1) pending
  | block {body label name text : CString} {o inner : Open} {n m : ℕ} {pending : Bool} :
      Inside body o n false → Label o label name → Inside text inner m pending →
      Inside (body ++ (label ++ inner.opening :: (text ++ [inner.endchar])))
        (o.add name inner.close) (n + m + 1) false

@[simp] lemma Open.empty_add (o : Open) (name : CString) (j : Json) :
    (o.add name j).empty = o.empty := by
  cases o <;> rfl

@[simp] lemma Open.empty_empty (o : Open) : o.empty.empty = o.empty := by
  cases o <;> rfl

/-! ## From the grammar to the loop -/

/-- The loop ends with this result. -/
def Ends (qty : ℕ) (s : State) (r : Json × ℕ) : Prop := ∃ fuel, objValue qty fuel s = .ok r

section

variable {qty : ℕ} {s s' : State} {r : Json × ℕ}

lemma ends_step (h : objStep qty s = .next s') : Ends qty s r ↔ Ends qty s' r := by
  constructor
  · rintro ⟨fuel, hfuel⟩
    cases fuel with
    | zero => cases hfuel
    | succ fuel =>
      rw [objValue, h] at hfuel
      exact ⟨fuel, hfuel⟩
  · rintro ⟨fuel, hfuel⟩
    refine ⟨fuel + 1, ?_⟩
    rw [objValue, h]
    exact hfuel

/-- A blank is passed over in the round of the next character. -/
lemma objStep_blank {c : Char} (hc : IsBlank c) (ptr : CString) :
    objStep qty { s with ptr := c :: ptr } = objStep qty { s with ptr } := by
  have hblank : goBlank (c :: ptr) = goBlank ptr := by
    rw [goBlank, if_pos (show isOneOfThem c blank = true from hc)]
  simp only [objStep, hblank, property]

lemma ends_between {c : Char} (hc : IsBetween c) (ptr : CString) :
    Ends qty { s with ptr := c :: ptr } r ↔ Ends qty { s with ptr } r := by
  rcases hc with hblank | rfl
  · have hfuel : ∀ fuel, objValue qty fuel { s with ptr := c :: ptr } =
        objValue qty fuel { s with ptr } := by
      intro fuel
      cases fuel with
      | zero => rfl
      | succ fuel => rw [objValue, objValue, objStep_blank hblank]
    simp only [Ends, hfuel]
  · exact ends_step (by rw [objStep, goBlank_eq, goWhile_cons]; rfl)

end

/-- With rounds enough for the text the fuel makes no difference. -/
lemma objValue_fuel {qty fuel fuel' : ℕ} {s : State} {r : Json × ℕ}
    (h : objValue qty fuel s = .ok r) (hfuel : s.ptr.length < fuel') :
    objValue qty fuel' s = .ok r := by
  induction fuel generalizing s fuel' with
  | zero => cases h
  | succ fuel ih =>
    cases fuel' with
    | zero => exact absurd hfuel (Nat.not_lt_zero _)
    | succ fuel' =>
      unfold objValue at h ⊢
      cases hstep : objStep qty s with
      | next s' =>
        rw [hstep] at h
        have hlength := (objStep_next hstep).behind.length
        exact ih h (by omega)
      | done root =>
        rw [hstep] at h
        exact h
      | fail reason =>
        rw [hstep] at h
        exact h

/-- The characters a value begins with. -/
def StartsValue (d : Char) : Prop := d ∈ ['"', '\x7b', '['] ∨ StartsPrimitive d

lemma StartsValue.spec {d : Char} (h : StartsValue d) :
    ¬ IsBlank d ∧ d ≠ ',' ∧ ∀ o : Open, d ≠ o.endchar := by
  have hdigit : ∀ c ∈ ", \n\r\t\x0c\x7d]".toList, ¬ StartsValue c := by
    have hall : ", \n\r\t\x0c\x7d]".toList.all (fun c => !(c.isDigit ||
        ['"', '\x7b', '[', '-', 't', 'f', 'n'].contains c)) = true := by decide
    intro c hc hstarts
    have hnone := List.all_eq_true.mp hall c hc
    rcases hstarts with hmem | hdigit | hmem
    · simp only [List.mem_cons, List.not_mem_nil, or_false] at hmem
      rcases hmem with rfl | rfl | rfl <;> simp at hnone
    · simp [hdigit] at hnone
    · simp only [List.mem_cons, List.not_mem_nil, or_false] at hmem
      rcases hmem with rfl | rfl | rfl | rfl <;> simp at hnone
  refine ⟨fun hblank => ?_, ?_, fun o => ?_⟩
  · have hmem : d ∈ blank := List.contains_iff_mem.mp hblank
    refine hdigit d (List.mem_cons_of_mem _ ?_) h
    exact (List.prefix_append blank ['\x7d', ']']).subset hmem
  · rintro rfl
    exact hdigit _ (by decide) h
  · rintro rfl
    exact hdigit _ (by cases o <;> simp [Open.endchar]) h

/-- The name in front of a value is found. -/
lemma Label.nextName {o : Open} {label name : CString} (h : Label o label name) {d : Char}
    (hd : ¬ IsBlank d) (ptr : CString) : o.nextName (label ++ d :: ptr) = some (name, d :: ptr) := by
  cases h with
  | item => rfl
  | @property properties body name gap gap' hbody hgap hgap' =>
    have hcolon : isOneOfThem ':' blank = false := by decide
    have hstring : parseString (body ++ '"' :: (gap ++ ':' :: (gap' ++ d :: ptr))) =
        some (name, gap ++ ':' :: (gap' ++ d :: ptr)) := hbody.parseString _
    have hbefore : goBlank (gap ++ ':' :: (gap' ++ d :: ptr)) = some (':' :: (gap' ++ d :: ptr)) := by
      rw [goBlank_eq]
      exact goWhile_append hgap hcolon _
    have hbehind : goBlank (gap' ++ d :: ptr) = some (d :: ptr) := by
      rw [goBlank_eq]
      exact goWhile_append hgap' (Bool.eq_false_iff.mpr hd) _
    simp [Open.nextName, propertyName, hstring, hbefore, hbehind]

/-- With a node left, the round reads the value. -/
lemma objStep_label {o : Open} {label name : CString} (h : Label o label name) {d : Char}
    (hd : StartsValue d) {qty nextFree : ℕ} (hroom : nextFree < qty) (ptr : CString)
    (parents : List (Open × CString)) :
    objStep qty ⟨label ++ d :: ptr, o, parents, nextFree⟩ =
      property ⟨label ++ d :: ptr, o, parents, nextFree⟩ (label ++ d :: ptr) := by
  have hstarts : ∃ c tail, label ++ d :: ptr = c :: tail ∧ StartsValue c := by
    cases h with
    | item => exact ⟨d, ptr, rfl, hd⟩
    | property => exact ⟨'"', _, rfl, .inl (by simp)⟩
  obtain ⟨c, tail, htext, hc⟩ := hstarts
  obtain ⟨hblank, hcomma, hend⟩ := hc.spec
  have hgo : goBlank (c :: tail) = some (c :: tail) := by
    rw [goBlank, if_neg (show ¬ isOneOfThem c blank = true from hblank)]
  rw [htext]
  simp only [objStep, hgo]
  rw [if_neg hcomma, if_neg (hend o), if_neg (by omega)]

/-- A value that is no block is added to the block. -/
lemma property_plain {s : State} {ptr ptr' name text rest : CString} {d : Char}
    (hname : s.obj.nextName ptr = some (name, d :: ptr')) (hd : d ≠ '\x7b' ∧ d ≠ '[')
    (hvalue : plainValue (d :: ptr') = some (text, rest)) :
    property s ptr = .next ⟨rest, s.obj.add name (.value text), s.parents, s.nextFree + 1⟩ := by
  rw [property, hname]
  split
  · next heq => cases heq
  · next heq =>
    cases heq
    exact absurd rfl hd.1
  · next heq =>
    cases heq
    exact absurd rfl hd.2
  · next heq =>
    cases heq
    rw [hvalue]

section

variable {qty nextFree : ℕ} {r : Json × ℕ} {o : Open} {label name : CString}
  {parents : List (Open × CString)}

/-- What ends a literal or a number has been taken with it, or closes the block. -/
lemma ends_setToNull {rest : CString} (hend : isEndOfPrimitive rest = true) :
    Ends qty ⟨setToNull rest, o, parents, nextFree⟩ r ↔ Ends qty ⟨rest, o, parents, nextFree⟩ r := by
  cases rest with
  | nil => cases hend
  | cons c rest =>
    rw [setToNull]
    split_ifs with hblock
    · rfl
    · have hbetween : IsBetween c := by
        simp only [isEndOfPrimitive, Bool.or_eq_true, beq_iff_eq, hblock, or_false,
          Bool.false_eq_true] at hend
        exact hend.symm
      exact (ends_between (s := ⟨rest, o, parents, nextFree⟩) hbetween rest).symm

lemma ends_plain {text value rest : CString} {pending : Bool} (hplain : Plain text value pending)
    (hlabel : Label o label name) (hend : pending = true → isEndOfPrimitive rest = true)
    (hroom : nextFree < qty)
    (h : Ends qty ⟨rest, o.add name (.value value), parents, nextFree + 1⟩ r) :
    Ends qty ⟨label ++ (text ++ rest), o, parents, nextFree⟩ r := by
  cases hplain with
  | @string body s hbody =>
    have hstarts : StartsValue '"' := .inl (by simp)
    have htext : '"' :: (body ++ ['"']) ++ rest = '"' :: (body ++ '"' :: rest) := by simp
    rw [htext]
    refine (ends_step ?_).mpr h
    rw [objStep_label hlabel hstarts hroom]
    exact property_plain (hlabel.nextName hstarts.spec.1 _) (by decide) (plainValue_string hbody rest)
  | primitive hprimitive =>
    obtain ⟨c, tail, rfl, hc⟩ := hprimitive.head
    have hstarts : StartsValue c := .inr hc
    refine (ends_step ?_).mpr ((ends_setToNull (hend rfl)).mpr h)
    have hread := hprimitive.read (hend rfl)
    rw [List.cons_append] at hread ⊢
    have hblock : c ≠ '\x7b' ∧ c ≠ '[' := by
      constructor <;> rintro rfl <;> rcases hc with hc | hc <;> revert hc <;> decide
    rw [objStep_label hlabel hstarts hroom]
    exact property_plain (hlabel.nextName hstarts.spec.1 _) hblock hread

/-- A bracket opens a block. -/
lemma objStep_opening (hlabel : Label o label name) (hroom : nextFree < qty) (inner : Open)
    (ptr : CString) :
    objStep qty ⟨label ++ inner.opening :: ptr, o, parents, nextFree⟩ =
      .next ⟨ptr, inner.empty, (o, name) :: parents, nextFree + 1⟩ := by
  have hstarts : StartsValue inner.opening := .inl (by cases inner <;> simp [Open.opening])
  have hname := hlabel.nextName hstarts.spec.1 ptr
  rw [objStep_label hlabel hstarts hroom, property]
  cases inner with
  | obj properties =>
    rw [Open.opening] at hname ⊢
    rw [hname]
    rfl
  | arr items =>
    rw [Open.opening] at hname ⊢
    rw [hname]
    rfl

lemma goBlank_endchar (o : Open) (ptr : CString) :
    goBlank (o.endchar :: ptr) = some (o.endchar :: ptr) := by
  cases o <;> rfl

lemma endchar_ne_comma (o : Open) : o.endchar ≠ ',' := by
  cases o <;> simp [Open.endchar]

lemma isEndOfPrimitive_endchar (o : Open) (rest : CString) :
    isEndOfPrimitive (o.endchar :: rest) = true := by
  cases o <;> rfl

lemma objStep_closing (parent : Open) (name : CString) (ptr : CString) :
    objStep qty ⟨o.endchar :: ptr, o, (parent, name) :: parents, nextFree⟩ =
      .next ⟨ptr, parent.add name o.close, parents, nextFree⟩ := by
  simp only [objStep, goBlank_endchar, if_neg (endchar_ne_comma o), if_true]

lemma objStep_root (ptr : CString) :
    objStep qty ⟨o.endchar :: ptr, o, [], nextFree⟩ = .done o.close := by
  simp only [objStep, goBlank_endchar, if_neg (endchar_ne_comma o), if_true]

/-- What is inside a block is read value by value. -/
lemma Inside.ends {body rest : CString} {n : ℕ} {pending : Bool} (h : Inside body o n pending)
    (hend : pending = true → isEndOfPrimitive rest = true) (hroom : n = 0 ∨ nextFree + n ≤ qty)
    (hrest : Ends qty ⟨rest, o, parents, nextFree + n⟩ r) :
    Ends qty ⟨body ++ rest, o.empty, parents, nextFree⟩ r := by
  induction h generalizing rest parents nextFree with
  | nothing o => simpa using hrest
  | @between body o n pending c _ hc ih =>
    rw [List.append_assoc]
    refine ih (fun _ => ?_) hroom ((ends_between (s := ⟨rest, o, parents, nextFree + n⟩) hc rest).mpr
      hrest)
    rcases hc with hblank | rfl
    · simp [isEndOfPrimitive, show isOneOfThem c blank = true from hblank]
    · rfl
  | @plain body label name text value o n pending _ hlabel hplain ih =>
    rw [Open.empty_add, List.append_assoc, List.append_assoc]
    refine ih (fun h => absurd h Bool.false_ne_true) (by omega) ?_
    exact ends_plain hplain hlabel hend (by omega) hrest
  | @block body label name text o inner n m pending _ hlabel _ ihbody ihtext =>
    have htext : body ++ (label ++ inner.opening :: (text ++ [inner.endchar])) ++ rest =
        body ++ (label ++ inner.opening :: (text ++ inner.endchar :: rest)) := by
      simp only [List.append_assoc, List.cons_append, List.nil_append]
    rw [Open.empty_add, htext]
    refine ihbody (fun h => absurd h Bool.false_ne_true) (by omega) ?_
    refine (ends_step (objStep_opening hlabel (by omega) inner _)).mpr ?_
    refine ihtext (fun _ => isEndOfPrimitive_endchar inner rest) (by omega) ?_
    refine (ends_step (objStep_closing o name rest)).mpr ?_
    have hcount : nextFree + n + 1 + m = nextFree + (n + m + 1) := by omega
    rw [hcount]
    exact hrest

end

/-- The loop on a whole object. -/
lemma Inside.ends_root {body : CString} {o : Open} {n : ℕ} {pending : Bool} {qty : ℕ}
    (h : Inside body o n pending) (hroom : n = 0 ∨ n < qty) (rest : CString) :
    Ends qty ⟨body ++ o.endchar :: rest, o.empty, [], 1⟩ (o.close, n + 1) := by
  refine h.ends (fun _ => isEndOfPrimitive_endchar o rest) (by omega) ⟨1, ?_⟩
  rw [objValue, objStep_root, Nat.add_comm]

/-! ## From the loop to the grammar -/

/-- Blanks and commas end what was pending. -/
lemma Inside.gap {body : CString} {o : Open} {n : ℕ} {pending : Bool} (h : Inside body o n pending)
    {gap : CString} (hgap : ∀ c ∈ gap, IsBlank c) :
    Inside (body ++ gap) o n (pending && gap.isEmpty) := by
  induction gap using List.reverseRecOn with
  | nil => simpa using h
  | append_singleton gap c ih =>
    have hinside := ih fun d hd => hgap d (List.mem_append_left _ hd)
    have hc : IsBlank c := hgap c (List.mem_append_right _ (List.mem_singleton_self c))
    have hended := hinside.between (.inl hc)
    have hne : (gap ++ [c]).isEmpty = false := by simp
    rw [hne, Bool.and_false, ← List.append_assoc]
    exact hended

/-- The text so far is that of the open blocks, with the number of nodes taken for them. -/
def Reading : (text : CString) → Open → (parents : List (Open × CString)) → ℕ → Bool → Prop
  | text, o, [], nextFree, pending =>
    ∃ n, Inside text o n pending ∧ (∃ properties, o = .obj properties) ∧ nextFree = n + 1
  | text, o, (parent, name) :: parents, nextFree, pending =>
    ∃ before label body nextFree' n, Reading before parent parents nextFree' false ∧
      Label parent label name ∧ Inside body o n pending ∧
      text = before ++ (label ++ o.opening :: body) ∧ nextFree = nextFree' + n + 1

section

variable {text : CString} {o : Open} {parents : List (Open × CString)} {nextFree : ℕ}
  {pending : Bool}

/-- What is added to the innermost block is added to the text. -/
lemma Reading.extend (h : Reading text o parents nextFree pending) (k : ℕ) {more : CString}
    {o' : Open} {pending' : Bool} (ho : o'.opening = o.opening)
    (hobj : (∃ properties, o = .obj properties) → ∃ properties, o' = .obj properties)
    (hadd : ∀ body n, Inside body o n pending → Inside (body ++ more) o' (n + k) pending') :
    Reading (text ++ more) o' parents (nextFree + k) pending' := by
  cases parents with
  | nil =>
    obtain ⟨n, hinside, hroot, rfl⟩ := h
    exact ⟨n + k, hadd _ _ hinside, hobj hroot, by omega⟩
  | cons parent parents =>
    obtain ⟨before, label, body, nextFree', n, hbefore, hlabel, hinside, rfl, rfl⟩ := h
    refine ⟨before, label, body ++ more, nextFree', n + k, hbefore, hlabel, hadd _ _ hinside, ?_,
      by omega⟩
    rw [ho]
    simp only [List.append_assoc, List.cons_append]

end

/-- A name that has been read is a label of the grammar. -/
lemma label_of_nextName {o : Open} {ptr : CString} {r : CString × CString}
    (h : o.nextName ptr = some r) : ∃ label, Label o label r.1 ∧ ptr = label ++ r.2 := by
  cases o with
  | arr items =>
    cases h
    exact ⟨[], .item, rfl⟩
  | obj properties =>
    unfold Open.nextName at h
    dsimp only at h
    split_ifs at h with hquote
    cases ptr with
    | nil => cases hquote
    | cons c ptr =>
      cases hquote
      obtain ⟨⟨name, rest⟩, hstring, hname⟩ := Option.bind_eq_some_iff.mp h
      obtain ⟨mid, hmid, hcolon⟩ := Option.bind_eq_some_iff.mp hname
      obtain ⟨body, hbody, hptr⟩ := stringBody_of_parseString hstring
      rw [goBlank_eq] at hmid
      obtain ⟨gap, hgap, hrest, -⟩ := goWhile_spec hmid
      split at hcolon
      · next mid =>
        obtain ⟨value, hvalue, rfl⟩ := Option.map_eq_some_iff.mp hcolon
        rw [goBlank_eq] at hvalue
        obtain ⟨gap', hgap', rfl, -⟩ := goWhile_spec hvalue
        refine ⟨_, .property hbody hgap hgap', ?_⟩
        dsimp only at hptr hrest ⊢
        rw [List.tail_cons] at hptr
        rw [hptr, hrest]
        simp only [List.append_assoc, List.cons_append]
      · cases hcolon

/-- A closing bracket is no value. -/
lemma property_of_closing {s : State} {c : Char} {ptr : CString}
    (hc : isOneOfThem c endofblock = true) (hend : c ≠ s.obj.endchar) :
    property s (c :: ptr) = .fail .malformed := by
  have hmem : c = '\x7d' ∨ c = ']' := by
    simpa [isOneOfThem, endofblock] using hc
  cases ho : s.obj with
  | obj properties =>
    have hne : c ≠ '\x7d' := by simpa [ho, Open.endchar] using hend
    cases hmem.resolve_left hne
    rw [property, ho]
    rfl
  | arr items =>
    have hne : c ≠ ']' := by simpa [ho, Open.endchar] using hend
    cases hmem.resolve_right hne
    rw [property, ho]
    rfl

section

variable {text : CString} {pending : Bool} {s s' : State} {qty : ℕ}

/-- What is pending stands before a closing bracket. -/
def ClosedNext (pending : Bool) (ptr : CString) : Prop :=
  pending = true → ∃ c rest, ptr = c :: rest ∧ isOneOfThem c endofblock = true

/-- The text so far and the state of the loop. -/
structure ReadTo (text : CString) (s : State) (pending : Bool) : Prop where
  reading : Reading text s.obj s.parents s.nextFree pending
  closed : ClosedNext pending s.ptr

/-- A value is read into the innermost block, behind which nothing is pending. -/
lemma reading_property {ptr : CString}
    (h : Reading text s.obj s.parents s.nextFree false) (hstep : property s ptr = .next s') :
    s'.nextFree = s.nextFree + 1 ∧
      ∃ text' pending', ReadTo text' s' pending' ∧ text ++ ptr = text' ++ s'.ptr := by
  have hblock : ∀ {name rest : CString} (inner : Open),
      s.obj.nextName ptr = some (name, inner.opening :: rest) →
      ∃ text', ReadTo text' ⟨rest, inner.empty, (s.obj, name) :: s.parents, s.nextFree + 1⟩ false ∧
        text ++ ptr = text' ++ rest := by
    intro name rest inner hname
    obtain ⟨label, hlabel, rfl⟩ := label_of_nextName hname
    refine ⟨text ++ (label ++ [inner.opening]), ⟨⟨text, label, [], s.nextFree, 0, h, hlabel,
      .nothing inner, ?_, rfl⟩, fun hp => absurd hp Bool.false_ne_true⟩, ?_⟩
    · cases inner <;> rfl
    · simp only [List.append_assoc, List.cons_append, List.nil_append]
  have hplain : ∀ {label name value more : CString} {pending' : Bool},
      Label s.obj label name → Plain more value pending' →
      Reading (text ++ (label ++ more)) (s.obj.add name (.value value)) s.parents (s.nextFree + 1)
        pending' := by
    intro label name value more pending' hlabel hvalue
    refine h.extend 1 (by cases s.obj <;> rfl) ?_ fun body n hinside => .plain hinside hlabel hvalue
    rintro ⟨properties, hobj⟩
    exact ⟨(name, .value value) :: properties, by rw [hobj]; rfl⟩
  unfold property at hstep
  split at hstep
  · cases hstep
  · next hname =>
    cases hstep
    obtain ⟨text', hread⟩ := hblock (.obj []) hname
    exact ⟨rfl, text', false, hread⟩
  · next hname =>
    cases hstep
    obtain ⟨text', hread⟩ := hblock (.arr []) hname
    exact ⟨rfl, text', false, hread⟩
  · next name ptr' _ _ hname =>
    obtain ⟨label, hlabel, rfl⟩ := label_of_nextName hname
    split at hstep
    · cases hstep
    · next value rest hvalue =>
      cases hstep
      refine ⟨rfl, ?_⟩
      rcases plainValue_spec hvalue with ⟨body, hbody, hptr⟩ | ⟨rest', hprimitive, hptr, hend, hrest⟩
      · dsimp only at hptr
        refine ⟨_, false, ⟨hplain hlabel (.string hbody), fun hp => absurd hp Bool.false_ne_true⟩, ?_⟩
        simp only [hptr, List.append_assoc, List.cons_append, List.nil_append]
      · dsimp only at hptr hrest hprimitive
        have hread := hplain hlabel (.primitive hprimitive)
        cases rest' with
        | nil => cases hend
        | cons c rest' =>
          rw [setToNull] at hrest
          split_ifs at hrest with hc
          · refine ⟨_, true, ⟨hread, fun _ => ⟨c, rest', hrest, hc⟩⟩, ?_⟩
            simp only [hptr, hrest, List.append_assoc]
          · have hbetween : IsBetween c := by
              simp only [isEndOfPrimitive, Bool.or_eq_true, beq_iff_eq, hc, or_false,
                Bool.false_eq_true] at hend
              exact hend.symm
            have hended := hread.extend 0 rfl id fun body n hinside =>
              Inside.between hinside hbetween
            refine ⟨_, false, ⟨hended, fun hp => absurd hp Bool.false_ne_true⟩, ?_⟩
            simp only [hptr, hrest, List.append_assoc, List.cons_append, List.nil_append]

/-- Blanks are part of the innermost block. -/
lemma ReadTo.gap (h : ReadTo text s pending) {gap : CString} (hgap : ∀ c ∈ gap, IsBlank c) :
    Reading (text ++ gap) s.obj s.parents s.nextFree (pending && gap.isEmpty) :=
  h.reading.extend 0 rfl id fun _ _ hinside => hinside.gap hgap

/-- One round reads on in the grammar, and takes a node only if there is one. -/
lemma ReadTo.step (h : ReadTo text s pending) (hstep : objStep qty s = .next s') :
    (s'.nextFree = s.nextFree ∨ s'.nextFree ≤ qty) ∧
      ∃ text' pending', ReadTo text' s' pending' ∧ text ++ s.ptr = text' ++ s'.ptr := by
  unfold objStep at hstep
  split at hstep
  · cases hstep
  · cases hstep
  · next c ptr hblank =>
    rw [goBlank_eq] at hblank
    obtain ⟨gap, hgap, hptr, -⟩ := goWhile_spec hblank
    have hread := h.gap hgap
    have htext : text ++ s.ptr = text ++ gap ++ c :: ptr := by rw [hptr, List.append_assoc]
    split_ifs at hstep with hcomma hend hfull
    · cases hstep
      have hended := hread.extend 0 rfl id fun _ _ hinside =>
        Inside.between hinside (.inr hcomma)
      refine ⟨.inl rfl, _, false, ⟨hended, fun hp => absurd hp Bool.false_ne_true⟩, ?_⟩
      rw [htext, List.append_assoc _ [c]]
      rfl
    · split at hstep
      · cases hstep
      · next parent name parents hparents =>
        cases hstep
        refine ⟨.inl rfl, text ++ gap ++ [c], false, ⟨?_, fun hp => absurd hp Bool.false_ne_true⟩, ?_⟩
        · rw [hparents] at hread
          obtain ⟨before, label, body, nextFree', n, hbefore, hlabel, hinside, hsplit, hcount⟩ := hread
          have hadd : Reading (before ++ (label ++ s.obj.opening :: (body ++ [s.obj.endchar])))
              (parent.add name s.obj.close) parents (nextFree' + (n + 1)) false :=
            hbefore.extend (n + 1) (by cases parent <;> rfl)
              (fun ⟨properties, hobj⟩ => ⟨_, by rw [hobj]; rfl⟩)
              fun outer m houter => .block houter hlabel hinside
          rw [hsplit, hend, hcount, Nat.add_assoc]
          simpa only [List.append_assoc, List.cons_append] using hadd
        · rw [htext, List.append_assoc _ [c]]
          rfl
    · -- what is pending stands before a closing bracket, which is no value
      have hpending : (pending && gap.isEmpty) = false := by
        by_contra hp
        rw [Bool.not_eq_false, Bool.and_eq_true, List.isEmpty_iff] at hp
        obtain ⟨d, rest, hd, hclosing⟩ := h.closed hp.1
        rw [hp.2, List.nil_append, hd] at hptr
        obtain ⟨rfl, rfl⟩ := List.cons.inj hptr
        rw [property_of_closing hclosing hend] at hstep
        cases hstep
      rw [hpending] at hread
      obtain ⟨hcount, text', pending', hread', hsplit⟩ := reading_property hread hstep
      exact ⟨.inr (by omega), text', pending', hread', htext.trans hsplit⟩

/-- The last round closes the object that `json_create` has opened. -/
lemma ReadTo.done (h : ReadTo text s pending) {root : Json} (hdone : objStep qty s = .done root) :
    ∃ body rest properties n pending', Inside body (.obj properties) n pending' ∧
      text ++ s.ptr = body ++ '\x7d' :: rest ∧ root = .obj properties.reverse ∧
      s.nextFree = n + 1 := by
  obtain ⟨-, hparents, rfl⟩ := objStep_done_congr hdone qty
  unfold objStep at hdone
  split at hdone
  · cases hdone
  · cases hdone
  · next c ptr hblank =>
    rw [goBlank_eq] at hblank
    obtain ⟨gap, hgap, hptr, -⟩ := goWhile_spec hblank
    have hread := h.gap hgap
    rw [hparents] at hread
    obtain ⟨n, hinside, ⟨properties, hobj⟩, hcount⟩ := hread
    have hclosing : c = s.obj.endchar := by
      by_contra hne
      split_ifs at hdone with hcomma hfull
      unfold property at hdone
      repeat' split at hdone
      all_goals cases hdone
    rw [hobj] at hinside hclosing ⊢
    refine ⟨text ++ gap, ptr, properties, n, _, hinside, ?_, rfl, hcount⟩
    rw [hptr, hclosing, List.append_assoc]
    rfl

/-- Every run that ends has read an object of the grammar. -/
lemma ReadTo.run {fuel : ℕ} (h : ReadTo text s pending) {root : Json} {used : ℕ}
    (hrun : objValue qty fuel s = .ok (root, used)) :
    ∃ body rest properties n pending', Inside body (.obj properties) n pending' ∧
      text ++ s.ptr = body ++ '\x7d' :: rest ∧ root = .obj properties.reverse ∧ used = n + 1 ∧
      (used = s.nextFree ∨ used ≤ qty) := by
  induction fuel generalizing s text pending with
  | zero => cases hrun
  | succ fuel ih =>
    unfold objValue at hrun
    cases hstep : objStep qty s with
    | next s' =>
      rw [hstep] at hrun
      obtain ⟨hcount, text', pending', hread, htext⟩ := h.step hstep
      obtain ⟨body, rest, properties, n, pending'', hinside, hsplit, hroot, hused, hle⟩ :=
        ih hread hrun
      refine ⟨body, rest, properties, n, pending'', hinside, htext.trans hsplit, hroot, hused, ?_⟩
      rcases hle with hle | hle
      · rw [hle]
        exact hcount
      · exact .inr hle
    | done root' =>
      rw [hstep] at hrun
      cases hrun
      obtain ⟨body, rest, properties, n, pending', hinside, hsplit, hroot, hcount⟩ := h.done hstep
      exact ⟨body, rest, properties, n, pending', hinside, hsplit, hroot, hcount, .inl rfl⟩
    | fail reason =>
      rw [hstep] at hrun
      cases hrun

end

/-! ## The language -/

/-- An object of the grammar is accepted. -/
lemma create_of_inside {gap body : CString} {properties : List (CString × Json)} {n qty : ℕ}
    {pending : Bool} (hgap : ∀ c ∈ gap, IsBlank c) (h : Inside body (.obj properties) n pending)
    (hroom : n = 0 ∨ n < qty) (rest : CString) :
    create (gap ++ '\x7b' :: (body ++ '\x7d' :: rest)) qty = .ok (.obj properties.reverse, n + 1) := by
  have hblank : goBlank (gap ++ '\x7b' :: (body ++ '\x7d' :: rest)) =
      some ('\x7b' :: (body ++ '\x7d' :: rest)) := by
    rw [goBlank_eq]
    exact goWhile_append hgap (by decide) _
  obtain ⟨fuel, hfuel⟩ := h.ends_root hroom rest
  rw [create, hblank]
  exact objValue_fuel hfuel (Nat.lt_succ_self _)

/-- **The texts `json_create` accepts** with a pool of `qty` nodes, whatever they are: those that begin,
behind blanks, with an object of the grammar with fewer values than the pool has nodes, or with
none.  The result is the tree of the object and one node for each value and one for the object. -/
theorem create_eq_ok_iff (text : CString) (qty : ℕ) (root : Json) (used : ℕ) :
    create text qty = .ok (root, used) ↔
      ∃ gap body rest properties n pending, (∀ c ∈ gap, IsBlank c) ∧
        text = gap ++ '\x7b' :: (body ++ '\x7d' :: rest) ∧
        Inside body (.obj properties) n pending ∧ root = .obj properties.reverse ∧ used = n + 1 ∧
        (n = 0 ∨ n < qty) := by
  constructor
  · intro h
    unfold create at h
    split at h
    · next ptr hblank =>
      rw [goBlank_eq] at hblank
      obtain ⟨gap, hgap, rfl, -⟩ := goWhile_spec hblank
      have hstart : ReadTo [] ⟨ptr, .obj [], [], 1⟩ false :=
        ⟨⟨0, .nothing (.obj []), ⟨[], rfl⟩, rfl⟩, fun hp => absurd hp Bool.false_ne_true⟩
      obtain ⟨body, rest, properties, n, pending, hinside, hsplit, hroot, hused, hle⟩ :=
        hstart.run h
      refine ⟨gap, body, rest, properties, n, pending, hgap, ?_, hinside, hroot, hused, ?_⟩
      · rw [← hsplit]
        rfl
      · dsimp only at hle
        omega
    · cases h
  · rintro ⟨gap, body, rest, properties, n, pending, hgap, rfl, hinside, rfl, rfl, hroom⟩
    exact create_of_inside hgap hinside hroom rest

end TinyJson

end SerialChrono
