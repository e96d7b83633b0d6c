import SerialChrono.Ini.Text

/-!
# A written file is read as it was written (`ini.c`)

Each item of a document is followed through the tests of the loop.  The blanks at its ends are
stripped first, which leaves a text the item begins with; `findCharsOrComment_append` then carries
the search for the separator, the bracket or a remark over the parts that contain none.
-/

namespace SerialChrono

open CText StreamReader

/-! ## Stripping -/

section

variable {a b s : CString} {c : Char}

lemma rstrip_append_cons (hc : isSpace c = false) (a b : CString) :
    rstrip (a ++ c :: b) = a ++ c :: rstrip b := by
  unfold rstrip List.rdropWhile
  rw [List.reverse_append, List.reverse_cons, List.append_assoc, List.dropWhile_append]
  split_ifs with hempty
  · rw [List.isEmpty_iff.mp hempty, List.singleton_append, List.dropWhile_cons_of_neg (by simp [hc])]
    simp
  · simp

lemma rstrip_append_blanks (a : CString) (hb : ∀ c ∈ b, isSpace c = true) :
    rstrip (a ++ b) = rstrip a := by
  unfold rstrip List.rdropWhile
  rw [List.reverse_append, List.dropWhile_append_of_pos fun c hc => hb c (List.mem_reverse.mp hc)]

lemma rstrip_blanks (hb : ∀ c ∈ b, isSpace c = true) : rstrip b = [] :=
  List.rdropWhile_eq_nil_iff.mpr hb

lemma rstrip_eq_self (hs : ∀ c ∈ s.getLast?, isSpace c = false) : rstrip s = s := by
  refine List.rdropWhile_eq_self_iff.mpr fun hne => ?_
  rw [hs _ (List.getLast?_eq_some_getLast hne)]
  exact Bool.false_ne_true

lemma lskip_append_blanks (hb : ∀ c ∈ b, isSpace c = true) (a : CString) :
    lskip (b ++ a) = lskip a :=
  List.dropWhile_append_of_pos hb

lemma lskip_eq_self (hs : ∀ c ∈ s.head?, isSpace c = false) : lskip s = s := by
  cases s with
  | nil => rfl
  | cons c s => exact List.dropWhile_cons_of_neg (by simp [hs c rfl])

lemma Blanks.blank (hb : Blanks b) : ∀ c ∈ b, isSpace c = true := fun c hc => (hb c hc).1

lemma Blanks.append_newline (hb : Blanks b) : ∀ c ∈ b ++ ['\n'], isSpace c = true := by
  intro c hc
  rcases List.mem_append.mp hc with hc | hc
  · exact hb.blank c hc
  · rw [List.mem_singleton.mp hc]
    rfl

/-- A trimmed text between blanks. -/
lemma rstrip_lskip_between (ha : ∀ c ∈ a, isSpace c = true) (hb : ∀ c ∈ b, isSpace c = true)
    (hs : Trimmed s) : rstrip (lskip (a ++ (s ++ b))) = s := by
  rw [lskip_append_blanks ha]
  rcases List.eq_nil_or_concat s with rfl | ⟨t, c, rfl⟩
  · rw [List.nil_append]
    exact rstrip_blanks fun c hc => hb c ((List.dropWhile_sublist _).subset hc)
  · rw [lskip_eq_self, rstrip_append_blanks _ hb, rstrip_eq_self hs.2]
    intro d hd
    refine hs.1 d ?_
    cases t <;> simpa using hd

/-! ## Searching -/

/-- Whether the text up to here ends with a blank. -/
def endsBlank (wasSpace : Bool) (s : CString) : Bool := (s.getLast?.map isSpace).getD wasSpace

lemma endsBlank_cons (wasSpace : Bool) (c : Char) (s : CString) :
    endsBlank wasSpace (c :: s) = endsBlank (isSpace c) s := by
  cases s <;> simp [endsBlank, List.getLast?_cons]

/-- The search passes over a text without the characters and without a remark. -/
lemma findCharsOrComment_append (chars : List Char) (wasSpace : Bool)
    (hchars : ∀ c ∈ s, c ∉ chars) (hremark : NoRemark s)
    (hfirst : wasSpace = true → s.head? ≠ some ';') (rest : CString) :
    findCharsOrComment chars wasSpace (s ++ rest) =
      let found := findCharsOrComment chars (endsBlank wasSpace s) rest
      (s ++ found.1, found.2) := by
  induction s generalizing wasSpace with
  | nil => rfl
  | cons c s ih =>
    have hstop : ¬ (c ∈ chars ∨ wasSpace = true ∧ c = ';') := by
      rintro (hc | ⟨hspace, rfl⟩)
      · exact hchars c List.mem_cons_self hc
      · exact hfirst hspace rfl
    have hnext : isSpace c = true → s.head? ≠ some ';' := by
      intro hc hs
      obtain ⟨t, rfl⟩ : ∃ t, s = ';' :: t := by
        cases s with
        | nil => cases hs
        | cons d s => exact ⟨s, by rw [Option.some.inj hs]⟩
      exact hremark c hc (List.prefix_append [c, ';'] t).isInfix
    rw [List.cons_append, findCharsOrComment, if_neg hstop,
      ih _ (fun d hd => hchars d (List.mem_cons_of_mem _ hd))
        (fun d hd hin => hremark d hd (hin.trans (List.suffix_cons c s).isInfix)) hnext,
      endsBlank_cons]
    rfl

lemma noRemark_of_notMem (hs : ';' ∉ s) : NoRemark s := fun _ _ hin =>
  hs (hin.subset (List.mem_cons_of_mem _ List.mem_cons_self))

lemma Blanks.notMem (hb : Blanks b) (hc : isSpace c = false) : c ∉ b := fun hmem => by
  rw [hb.blank c hmem] at hc
  cases hc

lemma Blanks.head_ne (hb : Blanks b) : b.head? ≠ some ';' := fun h =>
  hb.notMem (by decide) (List.mem_of_mem_head? h)

lemma Blanks.noRemark (hb : Blanks b) : NoRemark b := noRemark_of_notMem (hb.notMem (by decide))

lemma Blanks.endsBlank_eq (hb : Blanks b) (hne : b ≠ []) (wasSpace : Bool) :
    endsBlank wasSpace b = true := by
  rw [endsBlank, List.getLast?_eq_some_getLast hne]
  exact hb.blank _ (List.getLast_mem hne)

end

/-! ## Items -/

/-- The value is found behind the separator. -/
lemma IniPair.value_found (p : IniPair) :
    rstrip (lskip (findCharsOrComment [] false (rstrip (p.after ++ (p.value ++ (p.gap ++
      (remarkText p.remark ++ ['\n'])))))).1) = p.value := by
  have hvalue : ∀ wasSpace, wasSpace = endsBlank false p.after → wasSpace = true →
      p.value.head? ≠ some ';' := by
    rintro wasSpace rfl hspace hsemicolon
    rw [p.after_eq_nil hsemicolon] at hspace
    cases hspace
  have hafter (rest : CString) :=
    findCharsOrComment_append [] false (fun _ _ => List.not_mem_nil)
      p.after_blanks.noRemark (fun h => absurd h Bool.false_ne_true) rest
  have hfind (rest : CString) :=
    findCharsOrComment_append [] _ (fun _ _ => List.not_mem_nil) p.value_noRemark
      (hvalue _ rfl) rest
  cases hremark : p.remark with
  | none =>
    have hstrip : rstrip (p.after ++ (p.value ++ (p.gap ++ (remarkText none ++ ['\n'])))) =
        rstrip (p.after ++ p.value) := by
      rw [← List.append_assoc]
      exact rstrip_append_blanks _ p.gap_blanks.append_newline
    rw [hstrip]
    rcases eq_or_ne p.value [] with hnil | hne
    · rw [hnil, List.append_nil, rstrip_blanks p.after_blanks.blank]
      rfl
    · have hlast : ∀ c ∈ (p.after ++ p.value).getLast?, isSpace c = false := by
        rw [List.getLast?_append_of_ne_nil _ hne]
        exact p.value_trimmed.2
      have hall := hfind []
      rw [List.append_nil] at hall
      rw [rstrip_eq_self hlast, hafter, hall]
      exact rstrip_lskip_between p.after_blanks.blank (by simp [findCharsOrComment])
        p.value_trimmed
  | some r =>
    have hgap := findCharsOrComment_append []
      (endsBlank (endsBlank false p.after) p.value) (fun _ _ => List.not_mem_nil)
      p.gap_blanks.noRemark (fun _ => p.gap_blanks.head_ne) (';' :: rstrip (r ++ ['\n']))
    have hstrip : rstrip (p.after ++ (p.value ++ (p.gap ++ (remarkText (some r) ++ ['\n'])))) =
        p.after ++ (p.value ++ (p.gap ++ ';' :: rstrip (r ++ ['\n']))) := by
      have h := rstrip_append_cons (c := ';') rfl (p.after ++ (p.value ++ p.gap)) (r ++ ['\n'])
      rw [List.append_assoc, List.append_assoc, List.append_assoc, List.append_assoc] at h
      exact h
    rw [hstrip, hafter, hfind, hgap,
      p.gap_blanks.endsBlank_eq (p.gap_ne_nil (by rw [hremark]; exact Option.some_ne_none r))]
    simp only [findCharsOrComment, true_and, or_true, if_true, List.append_nil]
    exact rstrip_lskip_between p.after_blanks.blank p.gap_blanks.blank p.value_trimmed

/-- What an item is to the loop. -/
def IniItem.line : IniItem → IniLine
  | .note _ => .comment
  | .head h => .sectionHead h.name
  | .pair p => .pair p.name p.value
  | .more m => .continuation m.value

/-- An item as it is after the blanks at its end have been stripped. -/
def IniItem.stripped (item : IniItem) : CString := rstrip (item.text ++ ['\n'])

lemma IniNote.parseStart_eq (n : IniNote) (prevName : CString) (moved : Bool) :
    parseStart prevName (lskip (IniItem.note n).stripped) moved = .comment := by
  rcases hcomment : n.comment with - | ⟨c, comment⟩
  · have hblank : (IniItem.note n).stripped = [] := by
      rw [IniItem.stripped, IniItem.text, hcomment, List.append_nil]
      exact rstrip_blanks n.indent_blanks.append_newline
    rw [hblank]
    rfl
  · have hc := n.comment_first c (by rw [hcomment]; rfl)
    have hspace : isSpace c = false := by rcases hc with rfl | rfl <;> rfl
    have hstripped : (IniItem.note n).stripped = n.indent ++ c :: rstrip (comment ++ ['\n']) := by
      rw [IniItem.stripped, IniItem.text, hcomment, List.append_assoc]
      exact rstrip_append_cons hspace _ _
    have hhead : ∀ d ∈ (c :: rstrip (comment ++ ['\n'])).head?, isSpace d = false :=
      fun d hd => Option.mem_some_iff.mp hd ▸ hspace
    rw [hstripped, lskip_append_blanks n.indent_blanks.blank, lskip_eq_self hhead]
    exact if_pos hc

lemma IniHead.stripped_eq (h : IniHead) :
    (IniItem.head h).stripped = '[' :: (h.name ++ ']' :: rstrip (h.rest ++ ['\n'])) := by
  have hstrip := rstrip_append_cons (c := ']') rfl ('[' :: h.name) (h.rest ++ ['\n'])
  rw [IniItem.stripped, IniItem.text, List.cons_append, List.append_assoc]
  exact hstrip

lemma IniHead.parseStart_eq (h : IniHead) {prevName : CString} {moved : Bool}
    (hmoved : moved = true → prevName = []) :
    parseStart prevName (IniItem.head h).stripped moved = .sectionHead h.name := by
  have hfind := findCharsOrComment_append (s := h.name) [']'] false
    (fun c hc hin => h.name_closed (List.mem_singleton.mp hin ▸ hc)) h.name_noRemark
    (fun h => absurd h Bool.false_ne_true) (']' :: rstrip (h.rest ++ ['\n']))
  rw [IniHead.stripped_eq, parseStart, if_neg (by decide),
    if_neg (fun hcont => hcont.1 (hmoved hcont.2)), if_pos rfl, hfind]
  simp [findCharsOrComment]

lemma IniPair.stripped_eq (p : IniPair) :
    (IniItem.pair p).stripped = p.name ++ (p.before ++ p.separator ::
      rstrip (p.after ++ (p.value ++ (p.gap ++ (remarkText p.remark ++ ['\n']))))) := by
  have hspace : isSpace p.separator = false := by
    rcases p.isSeparator with hs | hs <;> rw [hs] <;> rfl
  have hstrip := rstrip_append_cons hspace (p.name ++ p.before)
    (p.after ++ (p.value ++ (p.gap ++ (remarkText p.remark ++ ['\n']))))
  simp only [List.append_assoc] at hstrip
  simpa only [IniItem.stripped, IniItem.text, List.append_assoc, List.cons_append] using hstrip

lemma IniPair.parseStart_eq (p : IniPair) {prevName : CString} {moved : Bool}
    (hmoved : moved = true → prevName = []) :
    parseStart prevName (IniItem.pair p).stripped moved = .pair p.name p.value := by
  obtain ⟨c, name, hname⟩ := List.exists_cons_of_ne_nil p.name_ne_nil
  obtain ⟨hsemi, hhash, hbracket⟩ := p.name_first c (by rw [hname]; rfl)
  have hfound (rest : CString) : findCharsOrComment ['=', ':'] false
      (p.name ++ (p.before ++ p.separator :: rest)) = (p.name ++ p.before, p.separator :: rest) := by
    have hsep : p.separator ∈ ['=', ':'] := by rcases p.isSeparator with hs | hs <;> simp [hs]
    rw [findCharsOrComment_append _ _ (fun d hd => ?_) p.name_noRemark
        (fun h => absurd h Bool.false_ne_true),
      findCharsOrComment_append _ _ (fun d hd => ?_) p.before_blanks.noRemark
        (fun _ => p.before_blanks.head_ne)]
    · simp only [findCharsOrComment, hsep, true_or, if_true, List.append_nil]
    · intro hin
      have hblank := p.before_blanks.blank d hd
      rcases List.mem_pair.mp hin with rfl | rfl <;> cases hblank
    · intro hin
      obtain ⟨heq, hcolon⟩ := p.name_noSeparator d hd
      rcases List.mem_pair.mp hin with rfl | rfl <;> contradiction
  have hvalue := p.value_found
  have hstrip : rstrip (p.name ++ p.before) = p.name := by
    rw [rstrip_append_blanks _ p.before_blanks.blank, rstrip_eq_self p.name_trimmed.2]
  rw [IniPair.stripped_eq]
  generalize rstrip (p.after ++ _) = rest at hvalue ⊢
  have hfind := hfound rest
  rw [hname, List.cons_append] at hfind ⊢
  rw [parseStart, if_neg (not_or.mpr ⟨hsemi, hhash⟩),
    if_neg (fun hcont => hcont.1 (hmoved hcont.2)), if_neg hbracket, hfind, ← hname]
  rcases p.isSeparator with hs | hs <;> simp only [hs, hstrip, hvalue]

lemma IniMore.stripped_eq (m : IniMore) : (IniItem.more m).stripped = m.indent ++ m.value := by
  have hlast : ∀ c ∈ (m.indent ++ m.value).getLast?, isSpace c = false := by
    rw [List.getLast?_append_of_ne_nil _ m.value_ne_nil]
    exact m.value_trimmed.2
  have hstrip := rstrip_append_blanks (m.indent ++ m.value) m.gap_blanks.append_newline
  rw [rstrip_eq_self hlast] at hstrip
  simpa only [IniItem.stripped, IniItem.text, List.append_assoc] using hstrip

lemma IniMore.lskip_stripped (m : IniMore) : lskip (IniItem.more m).stripped = m.value := by
  rw [m.stripped_eq, lskip_append_blanks m.indent_blanks.blank, lskip_eq_self m.value_trimmed.1]

lemma IniMore.parseStart_eq (m : IniMore) {prevName : CString} (hprev : prevName ≠ []) :
    parseStart prevName m.value true = .continuation m.value := by
  obtain ⟨c, value, hvalue⟩ := List.exists_cons_of_ne_nil m.value_ne_nil
  obtain ⟨hsemi, hhash⟩ := m.value_first c (by rw [hvalue]; rfl)
  rw [hvalue, parseStart, if_neg (not_or.mpr ⟨hsemi, hhash⟩), if_pos ⟨hprev, rfl⟩]

/-- An item is read for what it is: at the beginning of a line, or behind the byte order mark. -/
lemma IniItem.parseStart_eq (item : IniItem) {prevName : CString} {moved : Bool}
    (hmoved : moved = (lskip item.stripped != item.stripped) ∨ prevName = [])
    (hmore : ∀ m, item = .more m → prevName ≠ []) :
    parseStart prevName (lskip item.stripped) moved = item.line := by
  cases item with
  | note n => exact n.parseStart_eq prevName moved
  | head h =>
    have hself : lskip (IniItem.head h).stripped = (IniItem.head h).stripped := by
      rw [h.stripped_eq]
      exact lskip_eq_self fun c hc => Option.mem_some_iff.mp hc ▸ rfl
    rw [hself] at hmoved ⊢
    refine h.parseStart_eq fun hm => hmoved.resolve_left ?_
    simp [hm]
  | pair p =>
    have hself : lskip (IniItem.pair p).stripped = (IniItem.pair p).stripped := by
      rw [p.stripped_eq]
      refine lskip_eq_self fun c hc => p.name_trimmed.1 c ?_
      rwa [List.head?_append_of_ne_nil _ p.name_ne_nil] at hc
    rw [hself] at hmoved ⊢
    refine p.parseStart_eq fun hm => hmoved.resolve_left ?_
    simp [hm]
  | more m =>
    have hprev := hmore m rfl
    have hbehind : moved = true := by
      rw [hmoved.resolve_right hprev, m.lskip_stripped, m.stripped_eq]
      simpa using m.indent_ne_nil
    rw [m.lskip_stripped, hbehind]
    exact m.parseStart_eq hprev

/-! ## Lines -/

lemma Blanks.oneLine {b : CString} (hb : Blanks b) : OneLine b :=
  ⟨fun h => (hb _ h).2 rfl, hb.notMem (by decide)⟩

lemma OneLine.append {a b : CString} (ha : OneLine a) (hb : OneLine b) : OneLine (a ++ b) :=
  ⟨fun h => (List.mem_append.mp h).elim ha.1 hb.1, fun h => (List.mem_append.mp h).elim ha.2 hb.2⟩

lemma OneLine.cons {c : Char} {s : CString} (hc : c ≠ '\n' ∧ c ≠ '\x00') (hs : OneLine s) :
    OneLine (c :: s) :=
  ⟨List.not_mem_cons_of_ne_of_not_mem hc.1.symm hs.1,
    List.not_mem_cons_of_ne_of_not_mem hc.2.symm hs.2⟩

lemma oneLine_remarkText {remark : Option CString} (h : ∀ r ∈ remark, OneLine r) :
    OneLine (remarkText remark) := by
  cases remark with
  | none => exact ⟨List.not_mem_nil, List.not_mem_nil⟩
  | some r => exact (h r rfl).cons (by decide)

lemma IniItem.oneLine_text (item : IniItem) : OneLine item.text := by
  cases item with
  | note n => exact n.indent_blanks.oneLine.append n.comment_oneLine
  | head h => exact (h.name_oneLine.append (h.rest_oneLine.cons (by decide))).cons (by decide)
  | pair p =>
    have hvalue := p.value_oneLine.append
      (p.gap_blanks.oneLine.append (oneLine_remarkText p.remark_oneLine))
    refine p.name_oneLine.append (p.before_blanks.oneLine.append
      ((p.after_blanks.oneLine.append hvalue).cons ?_))
    rcases p.isSeparator with hs | hs <;> rw [hs] <;> decide
  | more m => exact m.indent_blanks.oneLine.append (m.value_oneLine.append m.gap_blanks.oneLine)

lemma OneLine.cstr_newline {s : CString} (hs : OneLine s) : cstr (s ++ ['\n']) = s ++ ['\n'] :=
  takeWhile_ne_self fun h => (List.mem_append.mp h).elim hs.2 (by decide)

/-- A prefix ends before a character it does not contain. -/
lemma prefix_of_prefix_append_cons {m a b : CString} {c : Char} (hc : c ∉ m)
    (h : m <+: a ++ c :: b) : m <+: a := by
  rcases le_or_gt m.length a.length with hle | hlt
  · exact List.prefix_of_prefix_length_le h (List.prefix_append a (c :: b)) hle
  · have hac : a ++ [c] <+: m := by
      refine List.prefix_of_prefix_length_le ⟨b, by simp⟩ h ?_
      rw [List.length_append]
      exact hlt
    exact absurd (hac.subset (List.mem_append_right a (List.mem_singleton_self c))) hc

/-- No item begins with the byte order mark. -/
lemma IniItem.not_mark_prefix (item : IniItem) : ¬ byteOrderMark <+: item.text ++ ['\n'] := by
  intro hprefix
  have hhead : (item.text ++ ['\n']).head? = some '\xef' := by
    obtain ⟨rest, hrest⟩ := hprefix
    rw [← hrest]
    rfl
  have hblank {b : CString} (hb : Blanks b) {rest : CString} (hne : b ≠ []) :
      (b ++ rest).head? ≠ some '\xef' := by
    rw [List.head?_append_of_ne_nil _ hne]
    exact fun h => hb.notMem (by decide) (List.mem_of_mem_head? h)
  cases item with
  | note n =>
    rw [IniItem.text, List.append_assoc] at hhead
    rcases eq_or_ne n.indent [] with hindent | hne
    · rw [hindent, List.nil_append] at hhead
      have hfirst := n.comment_first
      cases hcomment : n.comment with
      | nil =>
        rw [hcomment] at hhead
        cases hhead
      | cons c comment =>
        rw [hcomment] at hhead hfirst
        rcases hfirst c rfl with rfl | rfl <;> cases hhead
    · exact hblank n.indent_blanks hne hhead
  | head h => cases hhead
  | pair p =>
    have hsep : p.separator ∉ byteOrderMark := by
      rcases p.isSeparator with hs | hs <;> rw [hs] <;> decide
    rw [IniItem.text, List.append_assoc, List.append_assoc, ← List.append_assoc] at hprefix
    have hname := prefix_of_prefix_append_cons hsep hprefix
    cases hbefore : p.before with
    | nil =>
      rw [hbefore, List.append_nil] at hname
      exact p.name_noMark hname
    | cons b before =>
      have hb : b ∉ byteOrderMark := by
        have hspace := p.before_blanks.blank b (hbefore ▸ List.mem_cons_self)
        intro hmem
        simp only [byteOrderMark, List.mem_cons, List.not_mem_nil, or_false] at hmem
        rcases hmem with rfl | rfl | rfl <;> cases hspace
      rw [hbefore] at hname
      exact p.name_noMark (prefix_of_prefix_append_cons hb hname)
  | more m =>
    rw [IniItem.text, List.append_assoc] at hhead
    exact hblank m.indent_blanks m.indent_ne_nil hhead

/-- A line without the byte order mark. -/
lemma IniItem.parse (item : IniItem) (p : IniPlace)
    (hmore : ∀ m, item = .more m → p.prevName ≠ []) :
    p.parse (item.text ++ ['\n']) = item.line := by
  have hmark : byteOrderMark.isPrefixOf (item.text ++ ['\n']) = false :=
    Bool.eq_false_iff.mpr fun h => item.not_mark_prefix (List.isPrefixOf_iff_prefix.mp h)
  rw [IniPlace.parse, item.oneLine_text.cstr_newline, parseIniLine, lineStart, hmark,
    Bool.and_false, Bool.false_or]
  exact item.parseStart_eq (.inl rfl) hmore

/-- The first line, behind the byte order mark. -/
lemma IniItem.parse_mark (item : IniItem) (hmore : ∀ m, item ≠ .more m) :
    IniPlace.start.advance.parse (byteOrderMark ++ item.text ++ ['\n']) = item.line := by
  have hmark : OneLine byteOrderMark := by decide
  have hstart : lineStart true (byteOrderMark ++ item.text ++ ['\n']) =
      (lskip item.stripped, true) := rfl
  rw [IniPlace.parse, (hmark.append item.oneLine_text).cstr_newline, parseIniLine]
  change parseStart [] (lineStart true (byteOrderMark ++ item.text ++ ['\n'])).1
    (lineStart true (byteOrderMark ++ item.text ++ ['\n'])).2 = item.line
  rw [hstart]
  exact item.parseStart_eq (.inr rfl) fun m hm => absurd hm (hmore m)

/-! ## The file -/

lemma iniRoom_ne_nil {name : CString} (hname : name ≠ []) : iniRoom name ≠ [] := by
  obtain ⟨c, s, rfl⟩ := List.exists_cons_of_ne_nil hname
  exact List.cons_ne_nil _ _

/-- The events of the items, from their lines and the place they stand at. -/
lemma itemEvents_cons (p : IniPlace) (item : IniItem) (items : List IniItem) :
    itemEvents p.sectionName p.prevName p.lineno (item :: items) =
      ((p.advance.event item.line).map fun e => (p.lineno + 1, e)).toList ++
        itemEvents (p.advance.after item.line).sectionName (p.advance.after item.line).prevName
          (p.advance.after item.line).lineno items := by
  cases item <;> rfl

/-- A further line of a value stands where there is a name it belongs to. -/
lemma prevName_after {p : IniPlace} {open_ : Bool} (item : IniItem)
    (hp : open_ = true → p.prevName ≠ []) (hmore : ∀ m, item = .more m → open_ = true) :
    item.continues open_ = true → (p.after item.line).prevName ≠ [] := by
  intro hopen
  cases item with
  | note n => exact hp hopen
  | head h => cases hopen
  | pair q => exact iniRoom_ne_nil q.name_ne_nil
  | more m => exact hp (hmore m rfl)

/-- The lines of the items, from any place. -/
lemma events_items {items : List IniItem} {open_ : Bool} (hitems : Continued open_ items)
    (p : IniPlace) (hp : open_ = true → p.prevName ≠ []) :
    p.events (items.map fun item => item.text ++ ['\n']) =
      itemEvents p.sectionName p.prevName p.lineno items := by
  induction items generalizing open_ p with
  | nil => rfl
  | cons item items ih =>
    obtain ⟨hmore, hrest⟩ := hitems
    rw [List.map_cons, IniPlace.events,
      item.parse p.advance (fun m hm => hp (hmore m hm)),
      ih hrest (p.advance.after item.line) (prevName_after (p := p.advance) item hp hmore),
      itemEvents_cons]
    rfl

/-- The first line may have the byte order mark before it. -/
lemma IniDocument.events_lines (doc : IniDocument) :
    IniPlace.start.events (doc.lines.map (· ++ ['\n'])) = doc.events := by
  have hclosed : false = true → IniPlace.start.prevName ≠ [] := fun h => absurd h (by decide)
  obtain ⟨mark, items, hitems, -⟩ := doc
  unfold IniDocument.lines IniDocument.events
  cases mark with
  | false =>
    rw [markFirst, List.map_map]
    · exact events_items hitems .start hclosed
    · exact fun _ _ h _ => absurd h Bool.false_ne_true
  | true =>
    cases items with
    | nil => rfl
    | cons item items =>
      obtain ⟨hmore, hrest⟩ := hitems
      have hparse := item.parse_mark fun m hm => absurd (hmore m hm) (by decide)
      have h := events_items hrest (IniPlace.start.advance.after item.line)
        (prevName_after (p := IniPlace.start.advance) item hclosed hmore)
      rw [List.map_cons, markFirst, List.map_cons, List.map_map, IniPlace.events, hparse]
      exact (congrArg _ h).trans (itemEvents_cons .start item items).symm

lemma IniDocument.oneLine_of_mem (doc : IniDocument) {line : CString} (hline : line ∈ doc.lines) :
    OneLine line := by
  have hitem : ∀ line ∈ doc.items.map IniItem.text, OneLine line := by
    rintro _ hmem
    obtain ⟨item, -, rfl⟩ := List.mem_map.mp hmem
    exact item.oneLine_text
  have hmark : OneLine byteOrderMark := by decide
  unfold IniDocument.lines at hline
  generalize doc.items.map IniItem.text = lines at hitem hline
  cases hdoc : doc.mark with
  | false =>
    rw [hdoc, markFirst] at hline
    · exact hitem line hline
    · exact fun _ _ h _ => absurd h Bool.false_ne_true
  | true =>
    rw [hdoc] at hline
    cases lines with
    | nil => exact hitem line hline
    | cons first lines =>
      rcases List.mem_cons.mp hline with rfl | hline
      · exact hmark.append (hitem first List.mem_cons_self)
      · exact hitem line (List.mem_cons_of_mem _ hline)

/-- The lines of a document are the lines of its text. -/
lemma IniDocument.reads_text (doc : IniDocument) :
    Reads (fgets 200) doc.text (doc.lines.map (· ++ ['\n'])) :=
  reads_fgets_lines doc.lines fun line hline =>
    ⟨(doc.oneLine_of_mem hline).1, Nat.add_le_add_right (doc.fits line hline) 2⟩

/-- The handler is called for the values that have been written, in their order, and for nothing
else; the number returned is the line of the first one it refuses. -/
theorem iniParseFile_text {U : Type} (handler : IniHandler U) (doc : IniDocument) (user : U) :
    iniParseFile handler doc.text user = some (replay handler user doc.events) := by
  rw [iniParseFile_of_reads handler doc.reads_text, doc.events_lines]

/-! ## A file with everything -/

def sampleNote : IniNote where
  indent := "  ".toList
  comment := "; the ring".toList
  indent_blanks := by decide
  comment_oneLine := by decide
  comment_first _ hc := by cases hc; decide

def sampleHead : IniHead where
  name := "Course".toList
  rest := " of today".toList
  name_oneLine := by decide
  name_closed := by decide
  name_noRemark := noRemark_of_notMem (by decide)
  rest_oneLine := by decide

/-- A pair with a remark. -/
def sampleRemark : IniPair where
  name := "ring".toList
  value := "2".toList
  before := [' ']
  separator := ':'
  after := [' ']
  gap := [' ']
  remark := some " the small one".toList
  name_ne_nil := by decide
  name_oneLine := by decide
  name_trimmed := by decide
  name_first _ hc := by cases hc; decide
  name_noSeparator := fun c hc => by
    have hall : "ring".toList.all fun c => c ≠ '=' ∧ c ≠ ':' := rfl
    simpa using List.all_eq_true.mp hall c hc
  name_noRemark := noRemark_of_notMem (by decide)
  name_noMark := by decide
  value_oneLine := by decide
  value_trimmed := by decide
  value_noRemark := noRemark_of_notMem (by decide)
  before_blanks := by decide
  isSeparator := .inr rfl
  after_blanks := by decide
  after_eq_nil h := absurd h (by decide)
  gap_blanks := by decide
  gap_ne_nil _ := by decide
  remark_oneLine _ hr := by cases hr; decide

/-- The value goes on in a further line. -/
def sampleMore : IniMore where
  indent := ['\t']
  value := "3".toList
  gap := [' ']
  indent_ne_nil := by decide
  indent_blanks := by decide
  value_ne_nil := by decide
  value_oneLine := by decide
  value_trimmed := by decide
  value_first _ hc := by cases hc; decide
  gap_blanks := by decide

/-- The four of them behind a byte order mark. -/
def sampleDocument : IniDocument where
  mark := true
  items := [.head sampleHead, .note sampleNote, .pair sampleRemark, .more sampleMore]
  continued := by simp [Continued, IniItem.continues]
  fits line hline := by
    have hall : (markFirst true ([.head sampleHead, .note sampleNote, .pair sampleRemark,
        .more sampleMore].map IniItem.text)).all (·.length ≤ 198) = true := rfl
    simpa using List.all_eq_true.mp hall line hline

example : sampleDocument.text = byteOrderMark ++
    "[Course] of today\n  ; the ring\nring : 2 ; the small one\n\t3 \n".toList := by decide

example : iniEvents sampleDocument.text =
    [(3, .call "Course".toList "ring".toList "2".toList),
      (4, .call "Course".toList "ring".toList "3".toList)] := by decide

end SerialChrono
