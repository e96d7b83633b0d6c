import SerialChrono.Canometroweb.Model

/-!
# The two dialects of the status (`parse_status_xml`)

Version run.37 of the chronometer names the elements of its status in Spanish and run.56 in
English.  The driver reads both with one loop over the elements, by the hashes of their names.
Each element stores one field (`parseStatusElement_dataElement`), so after the loop a field has
the value of the last element of one of its names, whatever the order (`foldlM_value`), and the
dialect of a name makes no difference (`parseStatusXml_dialects`).
-/

namespace SerialChrono

open CText

/-! ## The fields -/

namespace StatusField

/-- The field, as a number of its C type: `unsigned int` for `uptime`, `unsigned long` for
`tiempo`, `int` for the others. -/
def value : StatusField → CanometrowebData → ℤ
  | .ignored, _ => 0
  | .uptime, d => d.uptime % 2 ^ 32
  | .tiempo, d => d.tiempo % 2 ^ 64
  | .running, d => d.running
  | .countdown, d => d.countdown
  | .faltas, d => d.faltas
  | .rehuses, d => d.rehuses
  | .eliminado, d => d.eliminado
  | .cuentaresultados, d => d.cuentaresultados
  | .versionresultados, d => d.versionresultados

/-- The number the field gets from a text. -/
def read : StatusField → CString → ℤ
  | .ignored, _ => 0
  | .uptime, text => atoi text % 2 ^ 32
  | .tiempo, text => atol text % 2 ^ 64
  | _, text => atoi text

/-- The number fits into the field, and the C library can read it. -/
def Fits : StatusField → ℤ → Prop
  | .ignored, _ => False
  | .uptime, n => 0 ≤ n ∧ n < 2 ^ 32
  | .tiempo, n => 0 ≤ n ∧ n < 2 ^ 63
  | _, n => -2 ^ 31 ≤ n ∧ n < 2 ^ 31

/-- What is read from a text is the integer it begins with, if that fits. -/
lemma read_eq_textInt {field : StatusField} {text : CString} (h : field.Fits (textInt text)) :
    field.read text = textInt text := by
  have hlong : longMin ≤ textInt text ∧ textInt text ≤ longMax := by
    unfold longMin longMax
    cases field <;> simp only [Fits] at h <;> omega
  have hstrtol := strtol_of_range hlong.1 hlong.2
  cases field with
  | ignored => exact absurd h id
  | uptime =>
    change toInt32 (strtol text) % 2 ^ 32 = _
    rw [hstrtol, toInt32_def]
    obtain ⟨hlo, hhi⟩ := h
    split_ifs <;> omega
  | tiempo =>
    change strtol text % 2 ^ 64 = _
    obtain ⟨hlo, hhi⟩ := h
    rw [hstrtol]
    omega
  | running | countdown | faltas | rehuses | eliminado | cuentaresultados | versionresultados =>
    change toInt32 (strtol text) = _
    rw [hstrtol, toInt32_eq_self h.1 h.2]

/-- The status with one field read from a text. -/
def store : StatusField → CanometrowebData → CString → CanometrowebData
  | .ignored, d, _ => d
  | .uptime, d, text => { d with uptime := atoi text }
  | .tiempo, d, text => { d with tiempo := atol text }
  | .running, d, text => { d with running := atoi text }
  | .countdown, d, text => { d with countdown := atoi text }
  | .faltas, d, text => { d with faltas := atoi text }
  | .rehuses, d, text => { d with rehuses := atoi text }
  | .eliminado, d, text => { d with eliminado := atoi text }
  | .cuentaresultados, d, text => { d with cuentaresultados := atoi text }
  | .versionresultados, d, text => { d with versionresultados := atoi text }

@[simp] lemma value_store_self (field : StatusField) (d : CanometrowebData) (text : CString) :
    field.value (field.store d text) = field.read text := by
  cases field <;> rfl

/-- The other fields stay as they are. -/
lemma value_store_of_ne {field other : StatusField} (h : other ≠ field) (d : CanometrowebData)
    (text : CString) : other.value (field.store d text) = other.value d := by
  cases field <;> cases other <;> first | rfl | exact absurd rfl h

end StatusField

/-! ## The vocabularies -/

/-- The version of the chronometer the names are from. -/
inductive Dialect
  | run37 | run56
  deriving DecidableEq, Repr

/-- The name of a field.  Version run.37 has none for the countdown. -/
def Dialect.name : Dialect → StatusField → Option CString
  | _, .ignored => none
  | .run37, .uptime => some "millistime".toList
  | .run37, .tiempo => some "tiempoactual".toList
  | .run37, .running => some "cronocorriendo".toList
  | .run37, .countdown => none
  | .run37, .faltas => some "faltas".toList
  | .run37, .rehuses => some "rehuses".toList
  | .run37, .eliminado => some "eliminado".toList
  | .run37, .cuentaresultados => some "cuentaresultados".toList
  | .run37, .versionresultados => some "versionresultados".toList
  | .run56, .uptime => some "uptime".toList
  | .run56, .tiempo => some "time".toList
  | .run56, .running => some "running".toList
  | .run56, .countdown => some "countdown".toList
  | .run56, .faltas => some "faults".toList
  | .run56, .rehuses => some "refusals".toList
  | .run56, .eliminado => some "elimination".toList
  | .run56, .cuentaresultados => some "nresults".toList
  | .run56, .versionresultados => some "resultversion".toList

/-- An element with a name of one of the dialects and a text. -/
structure DataElement where
  dialect : Dialect
  field : StatusField
  name : CString
  text : CString
  named : dialect.name field = some name
  nonempty : text ≠ []

def DataElement.element (e : DataElement) : XmlElement := (e.name, some e.text)

/-- A document and its translation: the same fields with the same texts, whatever the dialects of
their names. -/
def Translation : List DataElement → List DataElement → Prop :=
  List.Forall₂ fun e e' => e.field = e'.field ∧ e.text = e'.text

/-- The precalculated hash of each name is the one of its field. -/
lemma lookup_strhash {dialect : Dialect} {field : StatusField} {name : CString}
    (h : dialect.name field = some name) : statusFields.lookup (strhash name) = some field := by
  cases dialect <;> cases field <;>
    simp only [Dialect.name, Option.some.injEq, reduceCtorEq] at h <;> subst h <;> decide

/-! ## One element, and all of them -/

lemma parseStatusElement_dataElement (pt : CanometrowebData) (e : DataElement) :
    parseStatusElement pt e.element = some (e.field.store pt e.text) := by
  have hlookup := lookup_strhash e.named
  unfold parseStatusElement DataElement.element
  rw [hlookup]
  cases e.field <;> rfl

/-- The status after these elements. -/
def storeAll (pt : CanometrowebData) (elements : List DataElement) : CanometrowebData :=
  elements.foldl (fun pt e => e.field.store pt e.text) pt

lemma foldlM_parseStatusElement (pt : CanometrowebData) (elements : List DataElement) :
    (elements.map DataElement.element).foldlM parseStatusElement pt =
      some (storeAll pt elements) := by
  induction elements generalizing pt with
  | nil => rfl
  | cons e elements ih =>
    rw [List.map_cons, List.foldlM_cons, parseStatusElement_dataElement, Option.bind_eq_bind,
      Option.bind_some, ih]
    rfl

/-- The last element that names a field. -/
def lastNaming (field : StatusField) (elements : List DataElement) : Option DataElement :=
  elements.reverse.find? fun e => e.field = field

/-- After the elements a field has the value of the last one that names it. -/
lemma value_storeAll (field : StatusField) (pt : CanometrowebData)
    (elements : List DataElement) :
    field.value (storeAll pt elements) =
      match lastNaming field elements with
      | some e => field.read e.text
      | none => field.value pt := by
  induction elements using List.reverseRecOn with
  | nil => rfl
  | append_singleton elements e ih =>
    have hlast : storeAll pt (elements ++ [e]) = e.field.store (storeAll pt elements) e.text := by
      rw [storeAll, List.foldl_append]
      rfl
    rw [hlast, lastNaming, List.reverse_append, List.reverse_singleton, List.singleton_append,
      List.find?_cons]
    by_cases hfield : e.field = field
    · simp [hfield]
    · rw [StatusField.value_store_of_ne (Ne.symm hfield), ih]
      simp [hfield, lastNaming]

lemma storeAll_translation {elements elements' : List DataElement}
    (h : Translation elements elements') (pt : CanometrowebData) :
    storeAll pt elements = storeAll pt elements' := by
  induction h generalizing pt with
  | nil => rfl
  | @cons e e' rest rest' hsame _ ih =>
    change storeAll (e.field.store pt e.text) rest = storeAll (e'.field.store pt e'.text) rest'
    rw [hsame.1, hsame.2, ih]

/-! ## The document -/

/-- **Both dialects are decoded alike.** From any list of elements with names of the dialects and
texts, in any order and with repetitions, each field gets the value of the last element that names
it, the integer the text begins with whenever that fits into the field; a field without element
keeps its value; and a translation of the document gives the same status. -/
theorem parseStatusXml_dialects (readXml : XmlReader) (pt : CanometrowebData) (xml : CString)
    (elements : List DataElement)
    (hread : readXml xml = some (elements.map DataElement.element)) :
    ∃ data, parseStatusXml readXml pt xml = some (some data) ∧
      (∀ field, field.value data =
        match lastNaming field elements with
        | some e => field.read e.text
        | none => field.value pt) ∧
      (∀ (field : StatusField) (text : CString), field.Fits (textInt text) →
        field.read text = textInt text) ∧
      ∀ xml' elements', readXml xml' = some (elements'.map DataElement.element) →
        Translation elements elements' → parseStatusXml readXml pt xml' = some (some data) := by
  have hparse : ∀ xml elements, readXml xml = some (elements.map DataElement.element) →
      parseStatusXml readXml pt xml = some (some (storeAll pt elements)) := by
    intro xml elements hread
    rw [parseStatusXml, hread]
    simp only [foldlM_parseStatusElement, Option.map_some]
  refine ⟨storeAll pt elements, hparse xml elements hread, fun field => value_storeAll _ _ _,
    fun field text => StatusField.read_eq_textInt, ?_⟩
  intro xml' elements' hread' htranslation
  rw [hparse xml' elements' hread', storeAll_translation htranslation]

/-- Elements of both dialects, one field twice. -/
def mixedStatus : List DataElement :=
  [⟨.run37, .faltas, "faltas".toList, "1".toList, rfl, List.cons_ne_nil _ _⟩,
    ⟨.run37, .tiempo, "tiempoactual".toList, "12340".toList, rfl, List.cons_ne_nil _ _⟩,
    ⟨.run56, .faltas, "faults".toList, " 2 ".toList, rfl, List.cons_ne_nil _ _⟩]

/-- The later of two elements counts, of whichever dialect it is. -/
theorem parseStatusXml_dialects_mixed :
    ∃ data, parseStatusXml (fun _ => some (mixedStatus.map DataElement.element)) .zero [] =
        some (some data) ∧
      StatusField.faltas.value data = 2 ∧ StatusField.tiempo.value data = 12340 ∧
      StatusField.running.value data = 0 := by
  obtain ⟨data, hparse, hvalue, -, -⟩ := parseStatusXml_dialects
    (fun _ => some (mixedStatus.map DataElement.element)) .zero [] mixedStatus rfl
  exact ⟨data, hparse, (hvalue .faltas).trans (by decide), (hvalue .tiempo).trans (by decide),
    (hvalue .running).trans (by decide)⟩

end SerialChrono
