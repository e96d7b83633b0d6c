import SerialChrono.Canometroweb.Model

/-!
# Status pages

A reader for documents whose root holds nothing but elements with a text, and pages it can read:
`flatXml_fieldsPage`.  The chronometers of the concrete runs answer with such pages.
-/

namespace SerialChrono

open CText

/-- The name and the text of an element, from the text after its `<`. -/
def flatElement (piece : CString) : Option XmlElement :=
  (cutAt '>' piece).bind fun (name, text) =>
    if name = "xml".toList ∨ name.head? = some '/' then none else some (name, some text)

lemma flatElement_of_name {name : CString} (hclose : '>' ∉ name) (text : CString) :
    flatElement (name ++ '>' :: text) =
      if name = "xml".toList ∨ name.head? = some '/' then none else some (name, some text) := by
  rw [flatElement, cutAt_append hclose]
  rfl

/-- `xmlReadMemory` on a document whose root holds nothing but elements with a text. -/
def flatXml : XmlReader := fun xml =>
  if xml = [] then none else some ((xml.splitOn '<').filterMap flatElement)

/-! ## A page of numbers -/

/-- An element of a page, with a number in it. -/
def fieldText (field : CString × ℤ) : CString :=
  '<' :: ((field.1 ++ '>' :: printInt field.2) ++ '<' :: ('/' :: field.1 ++ ">".toList))

/-- A page with these elements. -/
def fieldsPage (fields : List (CString × ℤ)) : CString :=
  "<xml>".toList ++ (fields.flatMap fieldText ++ "</xml>".toList)

/-- A name that `flatXml` takes for the name of an element. -/
def plainName (name : CString) : Bool :=
  '<' ∉ name ∧ '>' ∉ name ∧ name ≠ "xml".toList ∧ name.head? ≠ some '/'

lemma elements_fields {fields : List (CString × ℤ)}
    (hfields : ∀ field ∈ fields, plainName field.1 = true) (before : CString)
    (hbefore : '<' ∉ before) :
    ((before ++ (fields.flatMap fieldText ++ "</xml>".toList)).splitOn '<').filterMap flatElement =
      (flatElement before).toList ++ fields.map fun field => (field.1, some (printInt field.2)) := by
  induction fields generalizing before with
  | nil =>
    have hlast : "</xml>".toList = '<' :: "/xml>".toList := by decide
    have hclose : flatElement "/xml>".toList = none := by decide
    rw [List.flatMap_nil, List.nil_append, hlast,
      List.splitOn_append_cons_self_of_not_mem hbefore, List.splitOn_eq_singleton (by decide)]
    cases helement : flatElement before <;>
      simp only [List.filterMap_cons, List.filterMap_nil, helement, hclose, Option.toList_some,
        Option.toList_none, List.map_nil, List.append_nil]
  | cons field fields ih =>
    obtain ⟨hfield, hfields⟩ := List.forall_mem_cons.mp hfields
    simp only [plainName, decide_eq_true_eq] at hfield
    obtain ⟨hopen, hclose, hname, hslash⟩ := hfield
    have hnumber : '<' ∉ printInt field.2 := not_mem_printInt (by decide) (by decide) _
    have helement : flatElement (field.1 ++ '>' :: printInt field.2) =
        some (field.1, some (printInt field.2)) := by
      rw [flatElement_of_name hclose, if_neg (not_or.mpr ⟨hname, hslash⟩)]
    have hend : flatElement ('/' :: field.1 ++ ">".toList) = none := by
      have hclose' : '>' ∉ '/' :: field.1 := by
        rw [List.mem_cons, not_or]
        exact ⟨by decide, hclose⟩
      exact (flatElement_of_name hclose' []).trans (if_pos (.inr rfl))
    have hsplit : before ++ ((field :: fields).flatMap fieldText ++ "</xml>".toList) =
        before ++ '<' :: ((field.1 ++ '>' :: printInt field.2) ++
          '<' :: (('/' :: field.1 ++ ">".toList) ++
            (fields.flatMap fieldText ++ "</xml>".toList))) := by
      simp [fieldText]
    have hrest := ih hfields ('/' :: field.1 ++ ">".toList) (by
      simp only [List.mem_append, List.mem_cons, not_or]
      exact ⟨⟨by decide, hopen⟩, by decide⟩)
    rw [hend, Option.toList_none, List.nil_append] at hrest
    rw [hsplit, List.splitOn_append_cons_self_of_not_mem hbefore,
      List.splitOn_append_cons_self_of_not_mem (by
        simp only [List.mem_append, List.mem_cons, not_or]
        exact ⟨hopen, by decide, hnumber⟩)]
    cases hfirst : flatElement before <;>
      simp only [List.filterMap_cons, hfirst, helement, hrest, Option.toList_some,
        Option.toList_none, List.map_cons, List.nil_append, List.singleton_append]

/-- A page is read as its elements. -/
lemma flatXml_fieldsPage {fields : List (CString × ℤ)}
    (hfields : ∀ field ∈ fields, plainName field.1 = true) :
    flatXml (fieldsPage fields) =
      some (fields.map fun field => (field.1, some (printInt field.2))) := by
  have hopen : fieldsPage fields =
      [] ++ '<' :: ("xml>".toList ++ (fields.flatMap fieldText ++ "</xml>".toList)) := rfl
  have hnone : flatElement [] = none ∧ flatElement "xml>".toList = none := by decide
  have hrest := elements_fields hfields "xml>".toList (by decide)
  rw [hnone.2, Option.toList_none, List.nil_append] at hrest
  have hne : fieldsPage fields ≠ [] := List.cons_ne_nil _ _
  rw [flatXml, if_neg hne, hopen,
    List.splitOn_append_cons_self_of_not_mem (by decide), List.filterMap_cons, hnone.1, hrest]

end SerialChrono
