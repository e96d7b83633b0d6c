import SerialChrono.Library.CText
import Mathlib.Data.List.TakeWhile

/-!
# The licence of the server (`ajax_curl.c`, `ajax_json.c`, `ajax_mgr.c`)

Before its event loop the ajax thread asks the server for its capabilities, looks for a marker
in the answer, reads the number after it and tests one bit.  An error is reported as -1, where
that bit is set; and the number is read as many characters into the answer as the marker is
long, wherever the marker was found.  `failsClosed_iff` says by the place of the marker which
answers this leaves right, and `checkLicense_documented` that an answer of the documented form is
read as it should be.
-/

namespace SerialChrono

open CText

/-! ## The check -/

/-- The text `parse_permissions` looks for. -/
def permsMarker : CString := "\x7b\"success\":true,\"perms\":".toList

/-- `parse_permissions`. -/
def parsePermissions (jsonStr : List Char) : ℤ :=
  let str := cstr jsonStr
  if strstr str permsMarker then atoi (str.drop permsMarker.length) else -1

/-- `ajax_get_permissions`, by what becomes of the request: no response when the transfer
fails. -/
def ajaxGetPermissions : (response : Option (List Char)) → ℤ
  | none => -1
  | some body => parsePermissions body

/-- `(permissions & 0x00000040L) != 0`. -/
def chronoAllowed (permissions : ℤ) : Bool :=
  BitVec.ofInt 64 permissions &&& 0x40#64 ≠ 0#64

/-- What the check in `ajax_manager_thread` makes of `license_options`. -/
def checkLicense (licenseOptions : ℤ) (response : Option (List Char)) : ℤ :=
  let permissions := ajaxGetPermissions response
  if chronoAllowed permissions then licenseOptions else -1

/-! ## What it is for -/

/-- The marker stands somewhere in the body, and the number after it has the bit. -/
def GrantsChrono (body : List Char) : Prop :=
  ∃ before after, body = before ++ permsMarker ++ after ∧ chronoAllowed (textInt after) = true

/-- The check makes `license_options` negative for every answer that does not grant the use of a
chronometer.  It is zero before: a program with an ajax thread has read no licence of its own. -/
def FailsClosed (response : Option (List Char)) : Prop :=
  0 ≤ checkLicense 0 response → ∃ body ∈ response, GrantsChrono body

/-- The marker stands at the place `i` of an answer, and there it does not mislead: at the
beginning, if the number is one a `long` can hold; not behind the place the number is read from,
which then is in the marker itself; or behind a text that is not read as a number with the bit. -/
def InReach (answer : CString) (i : ℕ) : Prop :=
  permsMarker <+: answer.drop i ∧
    (i = 0 ∧ textInt (answer.drop permsMarker.length) ≤ longMax ∨
      0 < i ∧ i ≤ permsMarker.length ∨
      permsMarker.length < i ∧
        chronoAllowed (atoi ((answer.take i).drop permsMarker.length)) = false)

/-- The marker stands at the place `i` of a body and the check does right by it: it is in reach
of the C string, or the number behind it has the bit, so that the check may as well pass. -/
def MarkerServes (body : List Char) (i : ℕ) : Prop :=
  permsMarker <+: body.drop i ∧
    (InReach (cstr body) i ∨
      chronoAllowed (textInt (body.drop (i + permsMarker.length))) = true)

/-! ## Numbers -/

/-- The bit of a chronometer. -/
lemma chronoAllowed_iff (n : ℤ) : chronoAllowed n = true ↔ 64 ≤ n % 128 := by
  have hand : BitVec.ofInt 64 n &&& 0x40#64 =
      if (BitVec.ofInt 64 n).getLsbD 6 then 0x40#64 else 0#64 := BitVec.and_twoPow _ 6
  have hbit : (BitVec.ofInt 64 n).getLsbD 6 = true ↔ 64 ≤ n % 128 := by
    rw [BitVec.getLsbD, BitVec.toNat_ofInt, Nat.testBit_eq_decide_div_mod_eq, decide_eq_true_iff]
    omega
  rw [← hbit, chronoAllowed, decide_eq_true_iff, hand]
  cases (BitVec.ofInt 64 n).getLsbD 6 <;> decide

/-- The number read as an `int` has the bit of the one written, if a `long` can hold that. -/
lemma chronoAllowed_atoi {s : CString} (h : textInt s ≤ longMax)
    (hallowed : chronoAllowed (atoi s) = true) : chronoAllowed (textInt s) = true := by
  rw [chronoAllowed_iff] at hallowed ⊢
  unfold atoi strtol at hallowed
  rw [toInt32_def] at hallowed
  unfold longMin longMax at *
  split_ifs at hallowed <;> omega

/-! ## Which number is read -/

section

variable {body : List Char} {answer : CString} {i : ℕ}

/-- The check passes for a number with the bit, and for an error. -/
lemma checkLicense_nonneg_iff (response : Option (List Char)) :
    0 ≤ checkLicense 0 response ↔ chronoAllowed (ajaxGetPermissions response) = true := by
  unfold checkLicense
  dsimp only
  cases chronoAllowed (ajaxGetPermissions response) <;> decide

lemma ajaxGetPermissions_of_marker (h : permsMarker <:+: cstr body) :
    ajaxGetPermissions (some body) = atoi ((cstr body).drop permsMarker.length) := by
  simp [ajaxGetPermissions, parsePermissions, strstr_iff.mpr h]

lemma ajaxGetPermissions_of_no_marker (h : ¬ permsMarker <:+: cstr body) :
    ajaxGetPermissions (some body) = -1 := by
  have hstr : strstr (cstr body) permsMarker = false := by
    rwa [← Bool.not_eq_true, strstr_iff]
  simp [ajaxGetPermissions, parsePermissions, hstr]

lemma permsMarker_found (h : permsMarker <+: answer.drop i) : permsMarker <:+: answer :=
  h.isInfix.trans (List.drop_suffix i answer).isInfix

lemma atoi_append_marker (before after : CString) :
    atoi (before ++ (permsMarker ++ after)) = atoi before := by
  unfold atoi strtol
  rw [show permsMarker ++ after = '\x7b' :: (permsMarker.tail ++ after) from rfl,
    textInt_append_cons (by decide)]

/-- No number begins inside the marker. -/
lemma atoi_inside_marker {k : ℕ} (hk : k < permsMarker.length) (after : CString) :
    atoi (permsMarker.drop k ++ after) = 0 := by
  have hall : permsMarker.all (fun c => decide (EndsNumeral c)) = true := rfl
  have hc := List.all_eq_true.mp hall _ (List.getElem_mem hk)
  unfold atoi strtol
  rw [List.drop_eq_getElem_cons hk, List.cons_append,
    ← List.nil_append (permsMarker[k] :: (List.drop (k + 1) permsMarker ++ after)),
    textInt_append_cons (of_decide_eq_true hc)]
  rfl

/-- Where the marker is not at the beginning it is in reach exactly if the number has no bit. -/
lemma inReach_iff (hmarker : permsMarker <+: answer.drop i) (hi : 0 < i) :
    InReach answer i ↔ chronoAllowed (atoi (answer.drop permsMarker.length)) = false := by
  obtain ⟨after, hafter⟩ := hmarker
  have hsplit : answer = answer.take i ++ (permsMarker ++ after) := by
    rw [hafter, List.take_append_drop]
  have hinside : i ≤ answer.length := by
    by_contra hout
    rw [List.drop_of_length_le (by omega)] at hafter
    exact absurd (List.append_eq_nil_iff.mp hafter).1 (by decide)
  rcases Nat.lt_or_ge permsMarker.length i with hlt | hle
  · have hlength : permsMarker.length ≤ (answer.take i).length := by
      rw [List.length_take]
      omega
    have hread : atoi (answer.drop permsMarker.length) =
        atoi ((answer.take i).drop permsMarker.length) := by
      conv_lhs => rw [hsplit, List.drop_append_of_le_length hlength]
      exact atoi_append_marker _ after
    rw [hread]
    refine ⟨fun h => ?_, fun h => ⟨⟨after, hafter⟩, .inr (.inr ⟨hlt, h⟩)⟩⟩
    rcases h.2 with ⟨hzero, -⟩ | ⟨-, hle⟩ | ⟨-, h⟩
    · omega
    · omega
    · exact h
  · have hread : atoi (answer.drop permsMarker.length) = 0 := by
      have hdrop : answer.drop permsMarker.length =
          (answer.drop i).drop (permsMarker.length - i) := by
        rw [List.drop_drop, Nat.add_sub_cancel' hle]
      rw [hdrop, ← hafter, List.drop_append_of_le_length (by omega)]
      exact atoi_inside_marker (by omega) after
    rw [hread]
    exact iff_of_true ⟨⟨after, hafter⟩, .inr (.inl ⟨hi, hle⟩)⟩ (by decide)

/-- An answer with the marker for which the check does not pass has one in reach. -/
lemma exists_inReach (hmarker : permsMarker <:+: answer)
    (hdenied : chronoAllowed (atoi (answer.drop permsMarker.length)) = false) :
    ∃ i, InReach answer i := by
  obtain ⟨before, after, rfl⟩ := hmarker
  refine ⟨before.length, ?_⟩
  have hplace : permsMarker <+: (before ++ permsMarker ++ after).drop before.length := by
    rw [List.append_assoc, List.drop_left]
    exact List.prefix_append _ _
  cases before with
  | cons c before => exact (inReach_iff hplace (Nat.succ_pos _)).mpr hdenied
  | nil =>
    refine ⟨hplace, .inl ⟨rfl, ?_⟩⟩
    by_contra hlong
    -- such a number is read as -1
    have hread : atoi (List.drop permsMarker.length ([] ++ permsMarker ++ after)) = -1 := by
      unfold atoi strtol
      rw [min_eq_left (by omega)]
      rfl
    rw [hread] at hdenied
    exact absurd hdenied (by decide)

/-- With the marker in reach the check passes for a number behind the marker. -/
lemma grantsChrono_of_inReach (h : InReach (cstr body) i)
    (hallowed : chronoAllowed (atoi ((cstr body).drop permsMarker.length)) = true) :
    GrantsChrono body := by
  rcases Nat.eq_zero_or_pos i with rfl | hi
  · obtain ⟨hmarker, ⟨-, hlong⟩ | ⟨hlt, -⟩ | ⟨hlt, -⟩⟩ := h
    · obtain ⟨after, rfl⟩ := hmarker.trans (List.takeWhile_prefix _)
      have hcut : (cstr (permsMarker ++ after)).drop permsMarker.length = cstr after := by
        rw [cstr, takeWhile_ne_append (by decide), List.drop_left]
        rfl
      rw [hcut] at hlong hallowed
      have hbit := chronoAllowed_atoi hlong hallowed
      rw [textInt_cstr] at hbit
      exact ⟨[], after, rfl, hbit⟩
    · omega
    · omega
  · rw [(inReach_iff h.1 hi).mp h] at hallowed
    cases hallowed

end

/-- The places of the marker that serve: those in reach, and those with the bit behind them. -/
lemma exists_markerServes_iff (body : List Char) :
    (∃ i, MarkerServes body i) ↔ GrantsChrono body ∨ ∃ i, InReach (cstr body) i := by
  constructor
  · rintro ⟨i, ⟨after, hafter⟩, hreach | hallowed⟩
    · exact .inr ⟨i, hreach⟩
    · refine .inl ⟨body.take i, after, ?_, ?_⟩
      · rw [List.append_assoc, hafter, List.take_append_drop]
      · rwa [← List.drop_drop, ← hafter, List.drop_left] at hallowed
  · rintro (⟨before, after, rfl, hallowed⟩ | ⟨i, hreach⟩)
    · refine ⟨before.length, ?_, .inr ?_⟩
      · rw [List.append_assoc, List.drop_left]
        exact List.prefix_append _ _
      · rwa [← List.length_append, List.drop_left]
    · have hcut : (cstr body).drop i <+: body.drop i := (List.takeWhile_prefix _).drop i
      exact ⟨i, hreach.1.trans hcut, .inl hreach⟩

/-- **When the check fails closed.** Exactly for the answers with the marker at a place where it
serves; never for a request that fails. -/
theorem failsClosed_iff (response : Option (List Char)) :
    FailsClosed response ↔ ∃ body ∈ response, ∃ i, MarkerServes body i := by
  simp only [exists_markerServes_iff]
  unfold FailsClosed
  rw [checkLicense_nonneg_iff]
  cases response with
  | none => simp [ajaxGetPermissions, chronoAllowed_iff]
  | some body =>
    simp only [Option.mem_def, Option.some.injEq, exists_eq_left']
    by_cases hmarker : permsMarker <:+: cstr body
    · rw [ajaxGetPermissions_of_marker hmarker]
      constructor
      · intro hcheck
        refine or_iff_not_imp_left.mpr fun hgrants => ?_
        have hdenied := Bool.not_eq_true _ ▸ mt hcheck hgrants
        exact exists_inReach hmarker hdenied
      · rintro (hgrants | ⟨i, hi⟩) hallowed
        · exact hgrants
        · exact grantsChrono_of_inReach hi hallowed
    · rw [ajaxGetPermissions_of_no_marker hmarker]
      have hnone : ¬ ∃ i, InReach (cstr body) i := fun ⟨i, hi⟩ => hmarker (permsMarker_found hi.1)
      simp [hnone, chronoAllowed_iff]

/-- The number in an answer of the documented form. -/
lemma parsePermissions_documented {n : ℤ} (hlo : -2 ^ 31 ≤ n) (hhi : n < 2 ^ 31) :
    parsePermissions (permsMarker ++ printInt n ++ "\x7d".toList) = n := by
  have hclean : cstr (permsMarker ++ printInt n ++ "\x7d".toList) =
      permsMarker ++ printInt n ++ "\x7d".toList := by
    refine takeWhile_ne_self ?_
    rw [List.append_assoc, List.mem_append, List.mem_append, not_or, not_or]
    exact ⟨by decide, not_mem_printInt (by decide) (by decide) n, by decide⟩
  have hmarker : strstr (permsMarker ++ printInt n ++ "\x7d".toList) permsMarker = true :=
    strstr_iff.mpr ⟨[], printInt n ++ "\x7d".toList, by simp⟩
  have hread : atoi (printInt n ++ "\x7d".toList) = n :=
    atoi_printInt_append hlo hhi (endsNumber_cons.mpr (by decide))
  unfold parsePermissions
  dsimp only
  rw [hclean, hmarker, if_pos rfl, List.append_assoc, List.drop_left, hread]

/-- An answer of the documented form, with nothing before it, is read as it should be. -/
theorem checkLicense_documented (licenseOptions : ℤ) {n : ℤ} (hlo : -2 ^ 31 ≤ n)
    (hhi : n < 2 ^ 31) :
    checkLicense licenseOptions (some (permsMarker ++ printInt n ++ "\x7d".toList)) =
      if chronoAllowed n then licenseOptions else -1 := by
  simp only [checkLicense, ajaxGetPermissions, parsePermissions_documented hlo hhi]

/-- A request that fails: the program goes on. -/
theorem license_fails_open : ¬ ∀ response : Option (List Char), FailsClosed response := by
  intro h
  obtain ⟨body, hbody, -⟩ := h none (by decide)
  cases hbody

end SerialChrono
