import SerialChrono.Library.CText

/-!
# Items of the licence (`getLicenseItem`)

The decrypted licence is a compact JSON object of texts.  `getLicenseItem` does not parse it: it
searches the whole text for the name in quotes, a colon and a quote, and takes what follows up
to the next quote.  With names and values free of quotes the pattern can only match at a name,
as `finds_licenseText` says: between two neighbouring quotes stands a name, a value, or a
punctuation mark that no key consists of, and only a name has a colon behind it.
-/

namespace SerialChrono

open CText

/-- The pattern `getLicenseItem` prints into `searchkey`, of 64 bytes. -/
def searchKey (item : CString) : CString :=
  ('"' :: (item ++ "\":\"".toList)).take 63

/-- `getLicenseItem`, for the text in `license_data` if there is any.  Nothing is defined when
`pt1` is moved past the end of that text. -/
def getLicenseItem (licenseData : Option CString) (item : CString) : Option (Option CString) :=
  match licenseData with
  | none => some none
  | some data =>
    match strstrAt data (searchKey item) with
    | none => some none
    | some offset =>
      let pt1 := offset + item.length + 4
      if data.length < pt1 then none
      else some ((cutAt '"' (data.drop pt1)).map Prod.fst)

/-! ## The licence text -/

/-- A field of the licence: a name and a value without quotes and backslashes.  That they are texts,
and have no terminator in them, plays no part. -/
structure LicenseField where
  name : CString
  value : CString
  plain : ∀ c ∈ name ++ value, c ≠ '"' ∧ c ≠ '\\'

/-- A field as it stands in the object. -/
def LicenseField.text (f : LicenseField) : CString :=
  '"' :: (f.name ++ "\":\"".toList ++ f.value ++ "\"".toList)

/-- The fields after the first, and the end of the object. -/
def moreFields (fields : List LicenseField) : CString :=
  fields.flatMap (fun f => ',' :: f.text) ++ "\x7d".toList

/-- The compact JSON object with these fields. -/
def licenseText : (fields : List LicenseField) → CString
  | [] => "\x7b\x7d".toList
  | f :: fields => '\x7b' :: (f.text ++ moreFields fields)

/-- The value of the first field of that name. -/
def fieldValue (fields : List LicenseField) (name : CString) : Option CString :=
  (fields.find? fun f => f.name = name).map LicenseField.value

/-- A key that `searchkey` has room for. -/
structure LicenseKey where
  item : CString
  nonempty : item ≠ []
  alphanumeric : ∀ c ∈ item, c.isAlphanum = true
  short : item.length ≤ 50

/-! ## Where the pattern matches -/

/-- Two texts without quotes, each closed by one. -/
lemma quoted_prefix_iff {a b s t : CString} (ha : '"' ∉ a) (hb : '"' ∉ b) :
    a ++ '"' :: s <+: b ++ '"' :: t ↔ a = b ∧ s <+: t := by
  induction a generalizing b with
  | nil =>
    cases b with
    | nil => simp
    | cons d b =>
      obtain ⟨hd, -⟩ := not_or.mp (List.mem_cons.not.mp hb)
      simp [hd]
  | cons c a ih =>
    obtain ⟨hc, ha⟩ := not_or.mp (List.mem_cons.not.mp ha)
    cases b with
    | nil => simp [Ne.symm hc]
    | cons d b =>
      obtain ⟨-, hb⟩ := not_or.mp (List.mem_cons.not.mp hb)
      simp only [List.cons_append, List.cons_prefix_cons, ih ha hb, List.cons.injEq, and_assoc]

lemma LicenseField.quote_notMem_name (f : LicenseField) : '"' ∉ f.name := fun h =>
  (f.plain '"' (List.mem_append_left f.value h)).1 rfl

lemma LicenseField.quote_notMem_value (f : LicenseField) : '"' ∉ f.value := fun h =>
  (f.plain '"' (List.mem_append_right f.name h)).1 rfl

namespace LicenseKey

variable (key : LicenseKey)

/-- A character that no key contains. -/
lemma notMem_item {c : Char} (hc : c.isAlphanum = false) : c ∉ key.item := fun h => by
  rw [key.alphanumeric c h] at hc
  cases hc

lemma quote_notMem_item : '"' ∉ key.item := key.notMem_item (by decide)

/-- The whole pattern fits. -/
lemma searchKey_eq : searchKey key.item = '"' :: (key.item ++ '"' :: ":\"".toList) := by
  have hshort := key.short
  have hlength : ('"' :: (key.item ++ "\":\"".toList)).length ≤ 63 := by
    simp only [List.length_cons, List.length_append]
    have hthree : "\":\"".toList.length = 3 := rfl
    omega
  rw [searchKey, List.take_of_length_le hlength]
  rfl

/-- At a quote the pattern matches if the text up to the next quote is the key, and a colon and a
quote follow. -/
lemma searchKey_prefix_iff {text rest : CString} (h : '"' ∉ text) :
    searchKey key.item <+: '"' :: (text ++ '"' :: rest) ↔
      key.item = text ∧ ":\"".toList <+: rest := by
  rw [searchKey_eq, List.cons_prefix_cons, quoted_prefix_iff key.quote_notMem_item h]
  exact and_iff_right rfl

/-- What stands behind a value: a comma or the closing brace. -/
def FollowsValue (rest : CString) : Prop := ∃ c more, rest = c :: more ∧ (c = ',' ∨ c = '\x7d')

lemma followsValue_moreFields (fields : List LicenseField) :
    FollowsValue (moreFields fields) := by
  cases fields with
  | nil => exact ⟨_, _, rfl, Or.inr rfl⟩
  | cons f fields => exact ⟨_, _, rfl, Or.inl rfl⟩

/-- Behind a quote that ends a value the pattern does not match. -/
lemma not_searchKey_prefix_closing {rest : CString} (h : FollowsValue rest) :
    ¬ searchKey key.item <+: '"' :: rest := by
  obtain ⟨c, more, rfl, hc⟩ := h
  rw [searchKey_eq, List.cons_prefix_cons]
  rintro ⟨-, hp⟩
  obtain ⟨first, item, hitem⟩ := List.exists_cons_of_ne_nil key.nonempty
  rw [hitem, List.cons_append, List.cons_prefix_cons] at hp
  have hfirst := key.alphanumeric first (hitem ▸ List.mem_cons_self)
  rw [hp.1] at hfirst
  rcases hc with rfl | rfl <;> exact absurd hfirst (by decide)

/-- The search passes over a quote where the pattern does not match, up to the next quote. -/
lemma strstrAt_quoted {text rest : CString} (hp : ¬ searchKey key.item <+: '"' :: (text ++ rest))
    (h : '"' ∉ text) :
    strstrAt ('"' :: (text ++ rest)) (searchKey key.item) =
      (strstrAt rest (searchKey key.item)).map (· + (text.length + 1)) := by
  rw [strstrAt_cons hp]
  rw [searchKey_eq, strstrAt_append h, Option.map_map]
  rfl

/-- The search passes over a field of another name. -/
lemma strstrAt_other {f : LicenseField} (hname : f.name ≠ key.item) {rest : CString}
    (hrest : FollowsValue rest) :
    strstrAt (f.text ++ rest) (searchKey key.item) =
      (strstrAt rest (searchKey key.item)).map (· + f.text.length) := by
  have htext : f.text ++ rest =
      '"' :: (f.name ++ '"' :: ([':'] ++ '"' :: (f.value ++ '"' :: rest))) := by
    simp [LicenseField.text]
  have hopening : ¬ searchKey key.item <+:
      '"' :: (f.name ++ '"' :: ([':'] ++ '"' :: (f.value ++ '"' :: rest))) := fun hp =>
    hname ((key.searchKey_prefix_iff f.quote_notMem_name).mp hp).1.symm
  have hcolon : ¬ searchKey key.item <+: '"' :: ([':'] ++ '"' :: (f.value ++ '"' :: rest)) := by
    intro hp
    have hitem := ((key.searchKey_prefix_iff (by decide)).mp hp).1
    exact key.notMem_item (c := ':') (by decide) (by rw [hitem]; exact List.mem_cons_self)
  have hvalue : ¬ searchKey key.item <+: '"' :: (f.value ++ '"' :: rest) := by
    -- the value may be the key, but no colon follows it
    intro hp
    have hfollows := ((key.searchKey_prefix_iff f.quote_notMem_value).mp hp).2
    obtain ⟨c, more, rfl, hc⟩ := hrest
    have hcomma := (List.cons_prefix_cons.mp hfollows).1
    rcases hc with rfl | rfl <;> exact absurd hcomma (by decide)
  have hclosing := key.not_searchKey_prefix_closing hrest
  have hlength : f.text.length = f.name.length + f.value.length + 5 := by
    simp [LicenseField.text]
    omega
  rw [htext, key.strstrAt_quoted hopening f.quote_notMem_name,
    key.strstrAt_quoted hcolon (by decide), key.strstrAt_quoted hvalue f.quote_notMem_value,
    strstrAt_cons hclosing, hlength]
  cases strstrAt rest (searchKey key.item) with
  | none => rfl
  | some i =>
    simp only [Option.map_some, List.length_singleton, Option.some.injEq]
    omega

/-- The pattern matches at a field that has the key for its name. -/
lemma strstrAt_named {f : LicenseField} (hname : f.name = key.item) (rest : CString) :
    strstrAt (f.text ++ rest) (searchKey key.item) = some 0 ∧
      f.text ++ rest = searchKey key.item ++ (f.value ++ '"' :: rest) := by
  have htext : f.text ++ rest = searchKey key.item ++ (f.value ++ '"' :: rest) := by
    rw [searchKey_eq, LicenseField.text, hname]
    simp
  refine ⟨strstrAt_eq_zero ?_, htext⟩
  rw [htext]
  exact List.prefix_append _ _

/-- What the search finds in the fields of an object, the brace or comma before them left out:
the place of the first field of that name. -/
def Finds (fields : List LicenseField) (text : CString) : Prop :=
  match fieldValue fields key.item with
  | none => strstrAt text (searchKey key.item) = none
  | some value => ∃ offset rest, strstrAt text (searchKey key.item) = some offset ∧
      text.drop offset = searchKey key.item ++ (value ++ '"' :: rest)

/-- A character before the text, other than a quote, does not matter. -/
lemma Finds.cons {fields : List LicenseField} {text : CString} (h : key.Finds fields text)
    {c : Char} (hc : c ≠ '"') : key.Finds fields (c :: text) := by
  have hp : ¬ searchKey key.item <+: c :: text := by
    rw [searchKey_eq]
    exact fun hp => hc (List.cons_prefix_cons.mp hp).1.symm
  unfold Finds at h ⊢
  rw [strstrAt_cons hp]
  cases hvalue : fieldValue fields key.item with
  | none =>
    rw [hvalue] at h
    rw [h, Option.map_none]
  | some value =>
    rw [hvalue] at h
    obtain ⟨offset, rest, hsearch, hdrop⟩ := h
    exact ⟨offset + 1, rest, by rw [hsearch, Option.map_some], hdrop⟩

/-- One more field in front. -/
lemma Finds.field {fields : List LicenseField} {rest : CString} (h : key.Finds fields rest)
    (hrest : FollowsValue rest) (f : LicenseField) : key.Finds (f :: fields) (f.text ++ rest) := by
  by_cases hname : f.name = key.item
  · obtain ⟨hsearch, htext⟩ := key.strstrAt_named hname rest
    have hvalue : fieldValue (f :: fields) key.item = some f.value := by
      simp [fieldValue, hname]
    rw [Finds, hvalue]
    exact ⟨0, rest, hsearch, htext⟩
  · have hsearch := key.strstrAt_other hname hrest
    have hvalue : fieldValue (f :: fields) key.item = fieldValue fields key.item := by
      simp [fieldValue, hname]
    unfold Finds at h ⊢
    rw [hvalue, hsearch]
    cases hfound : fieldValue fields key.item with
    | none =>
      rw [hfound] at h
      rw [h, Option.map_none]
    | some value =>
      rw [hfound] at h
      obtain ⟨offset, after, hat, hdrop⟩ := h
      refine ⟨offset + f.text.length, after, by rw [hat, Option.map_some], ?_⟩
      rw [Nat.add_comm, ← List.drop_drop, List.drop_left, hdrop]

lemma finds_nil {text : CString} (h : '"' ∉ text) : key.Finds [] text := by
  change strstrAt text (searchKey key.item) = none
  rw [searchKey_eq]
  exact strstrAt_of_notMem h

lemma finds_moreFields (fields : List LicenseField) : key.Finds fields (moreFields fields) := by
  induction fields with
  | nil => exact key.finds_nil (by decide)
  | cons f fields ih =>
    have htext : moreFields (f :: fields) = ',' :: (f.text ++ moreFields fields) := by
      simp [moreFields]
    rw [htext]
    exact (ih.field key (followsValue_moreFields fields) f).cons key (by decide)

lemma finds_licenseText (fields : List LicenseField) :
    key.Finds fields (licenseText fields) := by
  cases fields with
  | nil => exact key.finds_nil (by decide)
  | cons f fields =>
    exact ((key.finds_moreFields fields).field key (followsValue_moreFields fields) f).cons key
      (by decide)

end LicenseKey

/-! ## The item -/

/-- **The item is the value of the first field of that name.** There is none if no field has the
name, whatever else the names and values contain. -/
theorem getLicenseItem_first (fields : List LicenseField) (key : LicenseKey) :
    getLicenseItem (some (licenseText fields)) key.item = some (fieldValue fields key.item) := by
  have hfinds := key.finds_licenseText fields
  unfold LicenseKey.Finds at hfinds
  cases hvalue : fieldValue fields key.item with
  | none =>
    rw [hvalue] at hfinds
    simp only [getLicenseItem, hfinds]
  | some value =>
    rw [hvalue] at hfinds
    obtain ⟨offset, rest, hsearch, hdrop⟩ := hfinds
    have hpattern : (searchKey key.item).length = key.item.length + 4 := by
      rw [key.searchKey_eq]
      simp
    have hlength := congrArg List.length hdrop
    rw [List.length_drop, List.length_append, hpattern, List.length_append,
      List.length_cons] at hlength
    have hinside : ¬ (licenseText fields).length < offset + key.item.length + 4 := by omega
    have hpt1 : (licenseText fields).drop (offset + key.item.length + 4) =
        value ++ '"' :: rest := by
      rw [Nat.add_assoc, ← List.drop_drop, hdrop, ← hpattern, List.drop_left]
    have hquote : '"' ∉ value := by
      obtain ⟨f, -, hf⟩ := Option.map_eq_some_iff.mp hvalue
      rw [← hf]
      exact f.quote_notMem_value
    simp only [getLicenseItem, hsearch, if_neg hinside, hpt1, cutAt_append hquote,
      Option.map_some]

def LicenseField.ofAll (name value : CString)
    (h : (name ++ value).all (fun c => decide (c ≠ '"' ∧ c ≠ '\\')) = true) : LicenseField :=
  ⟨name, value, fun c hc => of_decide_eq_true (List.all_eq_true.mp h c hc)⟩

/-- A name that is also the end of another one and stands in a value. -/
def serialFields : List LicenseField :=
  [.ofAll "oldserial".toList "serial:7".toList rfl, .ofAll "club".toList "serial".toList rfl,
    .ofAll "serial".toList "00000042".toList rfl, .ofAll "options".toList "1000000".toList rfl]

def serialKey : LicenseKey where
  item := "serial".toList
  nonempty := by decide
  alphanumeric c hc := by
    have hall : "serial".toList.all Char.isAlphanum = true := rfl
    exact List.all_eq_true.mp hall c hc
  short := by decide

theorem getLicenseItem_first_serial :
    getLicenseItem (some (licenseText serialFields)) serialKey.item =
      some (some "00000042".toList) :=
  getLicenseItem_first serialFields serialKey

end SerialChrono
