import SerialChrono.Events.JsonLanguage

/-!
# A tree is read back from its text (`tiny-json.c`)

`Json.print` writes a tree as a server writes its answer: strings between quotes with their escapes,
commas between the values, no blanks.  `create_print` says that `json_create` restores the tree from
it, whatever the names and texts are, and with the pool that `parse_events` makes for it if there
are only blocks in the arrays.
-/

namespace SerialChrono

open CText

namespace TinyJson

/-! ## Writing -/

/-- A character of a string, escaped if it must be. -/
def escapeChar (c : Char) : CString :=
  match c with
  | '"' => ['\\', '"']
  | '\\' => ['\\', '\\']
  | '\x08' => ['\\', 'b']
  | '\x0c' => ['\\', 'f']
  | '\n' => ['\\', 'n']
  | '\r' => ['\\', 'r']
  | '\t' => ['\\', 't']
  | c => [c]

/-- What stands between the quotes. -/
def escapeText (text : CString) : CString := text.flatMap escapeChar

def quoted (text : CString) : CString := '"' :: (escapeText text ++ ['"'])

mutual

def printJson : Json → CString
  | .value text => quoted text
  | .obj properties => '\x7b' :: (printProperties properties ++ ['\x7d'])
  | .arr items => '[' :: (printItems items ++ [']'])

def printProperties : List (CString × Json) → CString
  | [] => []
  | (name, j) :: properties =>
    quoted name ++ ':' :: (printJson j ++
      if properties.isEmpty then [] else ',' :: printProperties properties)

def printItems : List Json → CString
  | [] => []
  | j :: items => printJson j ++ if items.isEmpty then [] else ',' :: printItems items

end

mutual

/-- The nodes of a tree. -/
def nodeCount : Json → ℕ
  | .value _ => 1
  | .obj properties => propertyNodes properties + 1
  | .arr items => itemNodes items + 1

def propertyNodes : List (CString × Json) → ℕ
  | [] => 0
  | (_, j) :: properties => nodeCount j + propertyNodes properties

def itemNodes : List Json → ℕ
  | [] => 0
  | j :: items => nodeCount j + itemNodes items

end

/-- The strings that can be written. -/
def WritableText (text : CString) : Prop :=
  ∀ c ∈ text, ¬ c < ' ' ∨ c ∈ ['\x08', '\x0c', '\n', '\r', '\t']

/-- The trees all of whose names and texts can be written. -/
inductive Writable : Json → Prop
  | value {text : CString} : WritableText text → Writable (.value text)
  | obj {properties : List (CString × Json)} :
      (∀ p ∈ properties, WritableText p.1) → (∀ p ∈ properties, Writable p.2) →
      Writable (.obj properties)
  | arr {items : List Json} : (∀ j ∈ items, Writable j) → Writable (.arr items)

/-! ## Reading -/

lemma stringBody_escapeChar {c : Char} (hc : ¬ c < ' ' ∨ c ∈ ['\x08', '\x0c', '\n', '\r', '\t'])
    {body s : CString} (h : StringBody body s) : StringBody (escapeChar c ++ body) (c :: s) := by
  unfold escapeChar
  split
  all_goals first
    | exact .escape rfl h
    | skip
  next hquote hescape _ _ _ _ _ =>
  have hplain : ¬ c < ' ' := by
    refine hc.resolve_right fun hmem => ?_
    simp only [List.mem_cons, List.not_mem_nil, or_false] at hmem
    tauto
  exact .plain hplain hquote hescape h

lemma stringBody_escapeText {text : CString} (h : WritableText text) :
    StringBody (escapeText text) text := by
  induction text with
  | nil => exact .nil
  | cons c text ih =>
    obtain ⟨hc, htext⟩ := List.forall_mem_cons.mp h
    exact stringBody_escapeChar hc (ih htext)

/-- A value that is written behind its label is read into the block. -/
def PrintsBack (j : Json) : Prop :=
  ∀ {text : CString} {o : Open} {label name : CString} {n : ℕ}, Inside text o n false →
    Label o label name →
      Inside (text ++ (label ++ printJson j)) (o.add name j) (n + nodeCount j) false

lemma inside_printProperties {properties : List (CString × Json)}
    (hnames : ∀ p ∈ properties, WritableText p.1) (hvalues : ∀ p ∈ properties, PrintsBack p.2)
    {text : CString} {read : List (CString × Json)} {n : ℕ} (h : Inside text (.obj read) n false) :
    Inside (text ++ printProperties properties) (.obj (properties.reverse ++ read))
      (n + propertyNodes properties) false := by
  induction properties generalizing text read n with
  | nil => simpa [printProperties, propertyNodes] using h
  | cons p properties ih =>
    obtain ⟨name, j⟩ := p
    obtain ⟨hname, hnames⟩ := List.forall_mem_cons.mp hnames
    obtain ⟨hvalue, hvalues⟩ := List.forall_mem_cons.mp hvalues
    have hlabel : Label (.obj read) ('"' :: (escapeText name ++ '"' :: ([] ++ ':' :: []))) name :=
      .property (stringBody_escapeText hname) (by simp) (by simp)
    have hread := hvalue h hlabel
    rw [printProperties, propertyNodes, List.reverse_cons, List.append_assoc, ← Nat.add_assoc]
    cases properties with
    | nil => simpa [quoted, propertyNodes, Open.add] using hread
    | cons q properties =>
      have hrest := ih hnames hvalues (hread.between (.inr rfl))
      simpa [quoted] using hrest

lemma inside_printItems {items : List Json} (hitems : ∀ j ∈ items, PrintsBack j)
    {text : CString} {read : List Json} {n : ℕ} (h : Inside text (.arr read) n false) :
    Inside (text ++ printItems items) (.arr (items.reverse ++ read)) (n + itemNodes items)
      false := by
  induction items generalizing text read n with
  | nil => simpa [printItems, itemNodes] using h
  | cons j items ih =>
    obtain ⟨hj, hitems⟩ := List.forall_mem_cons.mp hitems
    have hread := hj h .item
    rw [printItems, itemNodes, List.reverse_cons, List.append_assoc, ← Nat.add_assoc]
    cases items with
    | nil => simpa [itemNodes, Open.add] using hread
    | cons k items =>
      have hrest := ih hitems (hread.between (.inr rfl))
      simpa using hrest

lemma printsBack {j : Json} (h : Writable j) : PrintsBack j := by
  induction h with
  | @value value htext =>
    intro text o label name n hinside hlabel
    rw [printJson, nodeCount]
    exact .plain hinside hlabel (.string (stringBody_escapeText htext))
  | @obj properties hnames _ ih =>
    intro text o label name n hinside hlabel
    have hbody := inside_printProperties hnames ih (.nothing (.obj []))
    have hread := hinside.block hlabel hbody
    simpa [printJson, nodeCount, Open.opening, Open.endchar, Open.close, Nat.add_assoc] using hread
  | @arr items _ ih =>
    intro text o label name n hinside hlabel
    have hbody := inside_printItems ih (.nothing (.arr []))
    have hread := hinside.block hlabel hbody
    simpa [printJson, nodeCount, Open.opening, Open.endchar, Open.close, Nat.add_assoc] using hread

section

variable {properties : List (CString × Json)}

lemma of_writable_obj (h : Writable (.obj properties)) :
    (∀ p ∈ properties, WritableText p.1) ∧ ∀ p ∈ properties, Writable p.2 := by
  cases h
  exact ⟨by assumption, by assumption⟩

lemma create_printJson (h : Writable (.obj properties)) {qty : ℕ}
    (hqty : nodeCount (.obj properties) ≤ qty) (rest : CString) :
    create (printJson (.obj properties) ++ rest) qty =
      .ok (.obj properties, nodeCount (.obj properties)) := by
  obtain ⟨hnames, hvalues⟩ := of_writable_obj h
  have hinside : Inside (printProperties properties) (.obj properties.reverse)
      (propertyNodes properties) false := by
    simpa using inside_printProperties hnames (fun p hp => printsBack (hvalues p hp))
      (.nothing (.obj []))
  have hroom : propertyNodes properties < qty := hqty
  have hcreate := create_of_inside (List.forall_mem_nil _) hinside (.inr hroom) rest
  simpa [printJson, nodeCount] using hcreate

/-- There are as many colons and brackets in a text as there are nodes in its tree. -/
lemma nodeCount_le_tokenCount (h : Writable (.obj properties))
    (hblocks : BlocksInArrays (.obj properties)) (rest : CString) :
    nodeCount (.obj properties) ≤ tokenCount (printJson (.obj properties) ++ rest) := by
  have hcreate := create_printJson h le_rfl rest
  rw [printJson, List.cons_append] at hcreate ⊢
  have hused := (objValue_nodes_le hcreate hblocks).2
  rw [tokenCount_cons (by simp)]
  dsimp only at hused
  omega

/-- **A tree is restored from its text**, whatever stands behind it, with any pool that has a node for
each of its values.  The pool of `parse_events` has, if the arrays hold only blocks. -/
theorem create_print (h : Writable (.obj properties)) (rest : CString) :
    (∀ qty, nodeCount (.obj properties) ≤ qty →
        create (printJson (.obj properties) ++ rest) qty =
          .ok (.obj properties, nodeCount (.obj properties))) ∧
      (BlocksInArrays (.obj properties) →
        jsonCreate (printJson (.obj properties) ++ rest)
          (tokenCount (printJson (.obj properties) ++ rest)) = some (.obj properties)) := by
  refine ⟨fun qty hqty => create_printJson h hqty rest, fun hblocks => ?_⟩
  rw [jsonCreate, create_printJson h (nodeCount_le_tokenCount h hblocks rest) rest]
  rfl

end

lemma writable_rows : Writable (.obj [("rows".toList, .arr [.obj []])]) := by
  refine .obj (List.forall_mem_singleton.mpr ?_) (List.forall_mem_singleton.mpr (.arr ?_))
  · simp [WritableText]
  · exact List.forall_mem_singleton.mpr (.obj (List.forall_mem_nil _) (List.forall_mem_nil _))

theorem create_print_rows :
    (∀ qty, nodeCount (.obj [("rows".toList, .arr [.obj []])]) ≤ qty →
        create (printJson (.obj [("rows".toList, .arr [.obj []])]) ++ []) qty =
          .ok (.obj [("rows".toList, .arr [.obj []])],
            nodeCount (.obj [("rows".toList, .arr [.obj []])]))) ∧
      (BlocksInArrays (.obj [("rows".toList, .arr [.obj []])]) →
        jsonCreate (printJson (.obj [("rows".toList, .arr [.obj []])]) ++ [])
          (tokenCount (printJson (.obj [("rows".toList, .arr [.obj []])]) ++ [])) =
            some (.obj [("rows".toList, .arr [.obj []])])) :=
  create_print writable_rows []

/-- Names and texts without control characters. -/
def plainFields (fields : List (CString × CString)) : Bool :=
  fields.all fun f => (f.1 ++ f.2).all fun c => decide (¬ c < ' ')

lemma writable_ofFields {fields : List (CString × CString)} (h : plainFields fields = true) :
    Writable (.ofFields fields) := by
  have hplain : ∀ f ∈ fields, WritableText f.1 ∧ WritableText f.2 := by
    intro f hf
    have hall := List.all_eq_true.mp (List.all_eq_true.mp h f hf)
    exact ⟨fun c hc => .inl (of_decide_eq_true (hall c (List.mem_append_left _ hc))),
      fun c hc => .inl (of_decide_eq_true (hall c (List.mem_append_right _ hc)))⟩
  refine .obj (List.forall_mem_map.mpr fun f hf => (hplain f hf).1)
    (List.forall_mem_map.mpr fun f hf => .value (hplain f hf).2)

lemma nodeCount_ofFields (fields : List (CString × CString)) :
    nodeCount (.ofFields fields) = fields.length + 1 := by
  unfold Json.ofFields nodeCount
  congr 1
  induction fields with
  | nil => rfl
  | cons f fields ih =>
    rw [List.map_cons, propertyNodes, ih, nodeCount, List.length_cons, Nat.add_comm]

lemma blocksInArrays_ofFields (fields : List (CString × CString)) :
    BlocksInArrays (.ofFields fields) :=
  .obj (List.forall_mem_map.mpr fun f _ => .value f.2)

/-- An object of texts is read back with a node for each of them. -/
lemma jsonCreate_ofFields {fields : List (CString × CString)} (h : plainFields fields = true)
    {qty : ℕ} (hqty : fields.length < qty) :
    jsonCreate (printJson (.ofFields fields)) qty = some (.ofFields fields) := by
  have hnodes : nodeCount (.ofFields fields) ≤ qty := by
    rw [nodeCount_ofFields]
    omega
  have hcreate := create_printJson (writable_ofFields h) hnodes []
  rw [List.append_nil] at hcreate
  unfold jsonCreate Json.ofFields
  rw [hcreate]
  rfl

end TinyJson

end SerialChrono
