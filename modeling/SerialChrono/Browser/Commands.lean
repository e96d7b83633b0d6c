import SerialChrono.Library.ParseInt
import SerialChrono.Managers.Agreement
import SerialChrono.Managers.Web

/-!
# The commands the page is sent (`crono.js`)

What the web manager queues for a command reaches the page as a text, and `parseCommand` looks for
the word it begins with.  The two agree on the words (`parseCommand_queued`), but the number of a
time or a countdown is read twice from one text: by main with `strtol` or `atoi`, and by the page
with `parseInt`.  `pageNumber_iff` says for which arguments the numbers are the same.

The texts are the bytes main has received.  The page gets them unchanged if they are ASCII without
quotes, backslashes and control characters; otherwise the reply they come in may not be JSON, or say
something else.
-/

namespace SerialChrono

open CText JsNumber

/-! ## `parseCommand` -/

/-- The function of the page that `parseCommand` calls, with the argument that comes from the
text. -/
inductive ParsedCall
  | reset
  | start (val : Number)
  | int (val : Number)
  | stop (val : Number)
  | msg (text : CString)
  | walk (seconds : Number)
  | down (seconds : Number)
  | turn (text : CString)
  | error (state : Bool)
  | bright (level : Number)
  | unknown
  deriving DecidableEq, Repr

/-- `parseCommand` -/
def parseCommand (command : CString) : ParsedCall :=
  let cmd := toLower command
  if "reset".toList.isPrefixOf cmd then .reset
  else if "start ".toList.isPrefixOf cmd then .start (parseInt (command.drop 6))
  else if "int ".toList.isPrefixOf cmd then .int (parseInt (command.drop 4))
  else if "stop ".toList.isPrefixOf cmd then .stop (parseInt (command.drop 5))
  else if "msg ".toList.isPrefixOf cmd then .msg (command.drop 4)
  else if "walk ".toList.isPrefixOf cmd then .walk (parseInt (command.drop 5))
  else if "down ".toList.isPrefixOf cmd then .down (parseInt (command.drop 5))
  else if "turn ".toList.isPrefixOf cmd then .turn (command.drop 5)
  else if "fail".toList.isPrefixOf cmd then .error true
  else if "ok".toList.isPrefixOf cmd then .error false
  else if "bright ".toList.isPrefixOf cmd then .bright (parseInt (command.drop 7))
  else .unknown

/-- The number in a call. -/
def ParsedCall.number : ParsedCall → Option Number
  | .start val | .int val | .stop val | .walk val | .down val | .bright val => some val
  | .reset | .msg _ | .turn _ | .error _ | .unknown => none

/-! ## What the web manager queues -/

/-- The text after the word of a command. -/
def joined (args : Tokens) : CString := [' '].intercalate args

/-- The argument of a command with a default. -/
def orDefault (dflt : CString) : Tokens → CString
  | [a] => a
  | _ => dflt

/-- The call of the page for a command with these arguments; `config` is the configuration main has
left. -/
def Command.pageCall (config : Configuration) (args : Tokens) : Command → ParsedCall
  | .reset => .reset
  | .start => .start (parseInt (orDefault "0".toList args))
  | .int => .int (parseInt (joined args))
  | .stop => .stop (parseInt (joined args))
  | .msg => if args = [] then .unknown else .msg (joined args)
  | .walk => .walk (parseInt (orDefault "420".toList args))
  | .down => .down (parseInt (orDefault "15".toList args))
  | .turn => .turn (printInt config.status.numero)
  | .fail => .error true
  | .ok => .error false
  | .bright => .bright (.whole config.bright)
  | .fault | .refusal | .elim | .data | .help | .version | .exit | .server | .ports | .config
  | .status | .clock | .debug => .unknown

section

variable {config config' : Configuration} {buffer source text : CString} {c : Command}
  {args tokens : Tokens} {call : WebCall} {f : Configuration → Tokens → ℕ → Option WebCall}

lemma webMgrSendMsg_queued
    (h : webMgrSendMsg config (source :: c.cmd :: args) (args.length + 2) = some call)
    (htext : call.queued = some text) :
    text = c.cmd ++ if args = [] then [] else ' ' :: joined args := by
  unfold webMgrSendMsg at h
  split_ifs at h
  · cases h
    cases htext
  · have hjoin : joinTokens (source :: c.cmd :: args) (args.length + 2) =
        some (c.cmd ++ args.flatMap fun token => ' ' :: token) := by
      simp [joinTokens]
    rw [hjoin] at h
    cases h
    cases htext
    cases args with
    | nil => rfl
    | cons a args =>
      rw [if_neg (List.cons_ne_nil a args), joined, intercalate_eq_append_flatMap]
      rfl

lemma webMgrSendDefault_queued {dflt : CString}
    (h : webMgrSendDefault (c.cmd ++ ' ' :: dflt) config (source :: c.cmd :: args)
      (args.length + 2) = some call) (htext : call.queued = some text) :
    text = c.cmd ++ ' ' :: orDefault dflt args := by
  unfold webMgrSendDefault at h
  split_ifs at h with hsource hlen
  · cases h
    cases htext
  · obtain ⟨a, rfl⟩ := List.length_eq_one_iff.mp (show args.length = 1 by omega)
    have hsent := webMgrSendMsg_queued h htext
    rwa [if_neg (List.cons_ne_nil a []), joined, List.intercalate_singleton] at hsent
  · cases h
    cases htext
    match args with
    | [] | _ :: _ :: _ => rfl
    | [a] => exact absurd rfl hlen

/-- The brightness main leaves is one of ten. -/
lemma mainMgrBright_safe {n : ℕ} {res : ℤ}
    (h : mainMgrEntries .bright config tokens n = some (res, config')) : Safe config'.bright := by
  obtain ⟨arg, -, hres⟩ := Option.bind_eq_some_iff.mp h
  cases hres
  unfold Safe
  dsimp only
  omega

/-- Main accepts a time only with an argument. -/
lemma args_ne_nil_of_mark {res : ℤ} (hc : c = .int ∨ c = .stop) (hres : ¬ res < 0)
    (h : mainMgrEntries c config (source :: c.cmd :: args) (args.length + 2) =
      some (res, config')) : args ≠ [] := by
  rintro rfl
  exact hres ((mainMgrEntries_spec h).1.mpr (.inl ⟨hc, .inr rfl⟩))

lemma parseCommand_eq
    (hentry : ∃ res, mainMgrEntries c config (source :: c.cmd :: args)
      (source :: c.cmd :: args).length = some (res, config') ∧ ¬ res < 0)
    (hf : webMgrEntries c = some f)
    (hcall : f config' (source :: c.cmd :: args) (source :: c.cmd :: args).length = some call)
    (htext : call.queued = some text) :
    parseCommand text = c.pageCall config' args := by
  obtain ⟨res, hentry, hres⟩ := hentry
  have hlen : (source :: c.cmd :: args).length = args.length + 2 := rfl
  rw [hlen] at hcall hentry
  cases c with
  | start | walk | down =>
    cases hf
    rw [webMgrSendDefault_queued hcall htext]
    rfl
  | int =>
    cases hf
    rw [webMgrSendMsg_queued hcall htext, if_neg (args_ne_nil_of_mark (.inl rfl) hres hentry)]
    rfl
  | stop =>
    cases hf
    rw [webMgrSendMsg_queued hcall htext, if_neg (args_ne_nil_of_mark (.inr rfl) hres hentry)]
    rfl
  | reset | fail | ok =>
    cases hf
    rw [webMgrSendMsg_queued hcall htext]
    rfl
  | msg =>
    cases hf
    rw [webMgrSendMsg_queued hcall htext, Command.pageCall]
    split_ifs <;> rfl
  | turn =>
    cases hf
    unfold webMgrSendTurn at hcall
    split_ifs at hcall <;> cases hcall
    · cases htext
    · cases htext
      rfl
  | bright =>
    cases hf
    unfold webMgrSendBright at hcall
    split_ifs at hcall <;> cases hcall
    · cases htext
    · cases htext
      rw [Command.pageCall, ← parseInt_printInt (mainMgrBright_safe hentry)]
      rfl
  | exit =>
    cases hf
    cases hcall
    cases htext
  | fault | refusal | elim | data | help | version | server | ports | config | status | clock
  | debug => cases hf

end

/-- Every message the web manager queues for a line is a call of the function of that command on the
page, with the number `parseInt` reads in the arguments.  Only a `msg` without a text is unknown. -/
theorem parseCommand_queued {config config' : Configuration} {buffer text : CString} {c : Command}
    {tokens : Tokens} {call : WebCall} {f : Configuration → Tokens → ℕ → Option WebCall}
    (h : mainFront config buffer = some (.dispatch c tokens config'))
    (hf : webMgrEntries c = some f) (hcall : f config' tokens tokens.length = some call)
    (htext : call.queued = some text) :
    parseCommand text = c.pageCall config' (tokens.drop 2) := by
  obtain ⟨source, args, rfl⟩ := parseLine_command (mainFront_dispatch h).1
  exact parseCommand_eq (mainFront_dispatch_nonneg h) hf hcall htext

theorem parseCommand_queued_walk :
    parseCommand "walk 300".toList = .walk (parseInt "300".toList) :=
  @parseCommand_queued defaultOptions defaultOptions "comm_server WALK 300".toList _ .walk
    ["comm_server".toList, "walk".toList, "300".toList] (.send "walk 300".toList) webMgrSendWalk
    (by decide) rfl (by decide) rfl

/-! ## The number main reads -/

/-- An argument that is not blank. -/
def visible (a : CString) : Bool := a.any fun c => !isWhite c

/-- The page reads the number of the first argument that is not blank. -/
lemma parseInt_joined (args : Tokens) :
    parseInt (joined args) = parseInt ((args.find? visible).getD []) := by
  have hblank {a : CString} (h : visible a = false) : ∀ c ∈ a, isWhite c = true := by
    simpa [visible] using h
  induction args with
  | nil => rfl
  | cons a args ih =>
    have hjoined (hne : args ≠ []) : joined (a :: args) = a ++ ' ' :: joined args :=
      (List.intercalate_cons_of_ne_nil hne).trans (by simp [joined])
    cases ha : visible a with
    | true =>
      rw [List.find?_cons_of_pos ha, Option.getD_some]
      rcases eq_or_ne args [] with rfl | hne
      · rw [joined, List.intercalate_singleton]
      · rw [hjoined hne]
        exact parseInt_append _ (by simpa [visible] using ha)
    | false =>
      rw [List.find?_cons_of_neg (by rw [ha]; decide)]
      rcases eq_or_ne args [] with rfl | hne
      · rw [joined, List.intercalate_singleton, ← List.append_nil a,
          parseInt_append_of_white [] (hblank ha)]
        rfl
      · rw [hjoined hne, parseInt_append_of_white _ (hblank ha), ← List.singleton_append,
          parseInt_append_of_white _ (List.forall_mem_singleton.mpr (by decide)), ih]

/-- The number main reads in a line: a time is in the configuration it leaves. -/
def mainNumber (c : Command) (config : Configuration) (tokens : Tokens) : Option ℤ :=
  match c with
  | .int => some config.status.intTime
  | .stop => some config.status.stopTime
  | c => mainValue c config tokens tokens.length

/-- The number of an argument fits where main puts it. -/
def Command.Fits (a : CString) : Command → Prop
  | .walk | .down => InInt a
  | _ => InLong a

/-- The arguments in which the page and main read one number. -/
def Command.SameNumber : Command → Tokens → Prop
  | .start, [a] | .walk, [a] | .down, [a] => Plain a
  | .start, a :: _ :: _ => textInt a = 0
  | .int, args | .stop, args =>
    ∃ a, args.find? visible = some a ∧ Plain a ∧ (args.head? = some a ∨ textInt a = 0)
  | _, _ => True

lemma InLong.natAbs_le {a : CString} (h : InLong a) : (textInt a).natAbs ≤ 2 ^ 63 := by
  unfold InLong longMin longMax at h
  omega

lemma InInt.natAbs_le {a : CString} (h : InInt a) : (textInt a).natAbs ≤ 2 ^ 63 := by
  unfold InInt at h
  omega

lemma parseInt_default (x : ℕ) (h : x ≤ 2 ^ 53) : parseInt (printNat x) = number x := by
  have hsafe : Safe (x : ℤ) := by
    unfold Safe
    omega
  rw [← printInt_natCast, parseInt_printInt hsafe, number_of_safe hsafe]

/-- A blank argument is read as zero. -/
lemma textInt_of_not_visible {a : CString} (hascii : SevenBit a) (h : visible a = false) :
    textInt a = 0 := by
  have hwhite : ∀ c ∈ a, isSpace c = true := fun c hc => by
    rw [← isWhite_of_ascii (hascii c hc)]
    simpa using List.any_eq_false.mp h c hc
  unfold textInt
  rw [List.dropWhile_eq_nil_iff.mpr hwhite]
  rfl

/-- The number of an intermediate time or of a stop. -/
lemma parseInt_joined_iff {a : CString} {rest : Tokens} (hascii : ∀ b ∈ a :: rest, SevenBit b)
    (ha : InLong a) :
    parseInt (joined (a :: rest)) = number (textInt a) ↔
      ∃ b, (a :: rest).find? visible = some b ∧ Plain b ∧
        ((a :: rest).head? = some b ∨ textInt b = 0) := by
  rw [parseInt_joined]
  cases hfind : (a :: rest).find? visible with
  | none =>
    rw [number_of_natAbs_le ha.natAbs_le]
    exact iff_of_false (by intro h; cases h) (by simp)
  | some b =>
    have hb := hascii b (List.mem_of_find?_eq_some hfind)
    rw [Option.getD_some]
    cases hvisible : visible a with
    | true =>
      rw [List.find?_cons_of_pos hvisible] at hfind
      cases hfind
      rw [parseInt_eq_number_iff hb ha.natAbs_le]
      exact ⟨fun h => ⟨a, rfl, h, .inl rfl⟩, fun ⟨_, hb, h, _⟩ => by cases hb; exact h⟩
    | false =>
      have hzero := textInt_of_not_visible (hascii a List.mem_cons_self) hvisible
      have hne : a ≠ b := by
        rintro rfl
        exact absurd (hvisible.symm.trans (List.find?_some hfind)) Bool.false_ne_true
      rw [hzero, (number_eq_whole_zero_iff 0).mpr rfl, parseInt_eq_zero_iff hb]
      constructor
      · exact fun h => ⟨b, rfl, h.1, .inr h.2⟩
      · rintro ⟨_, hb, hplain, hhead | htext⟩
        · cases hb
          exact absurd (Option.some.inj hhead) hne
        · cases hb
          exact ⟨hplain, htext⟩

section

variable {config config' : Configuration} {source : CString} {args : Tokens}

/-- The time main has stored is the number of the first argument. -/
lemma markTime_eq {c : Command} (hc : c = .int ∨ c = .stop) {a : CString} {res : ℤ}
    (hres : ¬ res < 0)
    (h : mainMgrEntries c config (source :: c.cmd :: a :: args) (args.length + 3) =
      some (res, config')) :
    mainNumber c config' (source :: c.cmd :: a :: args) = some (strtol a) := by
  rcases hc with rfl | rfl
  · simp only [mainMgrEntries, mainMgrInt] at h
    split_ifs at h <;> cases h <;> first | rfl | exact absurd (by decide) hres
  · simp only [mainMgrEntries, mainMgrStop] at h
    split_ifs at h <;> cases h <;> first | rfl | exact absurd (by decide) hres

/-- A countdown, where both take the only argument or the default. -/
lemma parseInt_orDefault_iff {x : ℕ} (hx : x ≤ 2 ^ 53) (hascii : ∀ a ∈ args, SevenBit a)
    (hfits : ∀ a ∈ args.head?, InInt a) :
    parseInt (orDefault (printNat x) args) = number (onlyArg atoi x args) ↔
      ∀ a, args = [a] → Plain a := by
  match args with
  | [] => exact iff_of_true (parseInt_default x hx) (by simp)
  | [a] =>
    have ha : InInt a := hfits a rfl
    rw [onlyArg, (atoi_eq_textInt_iff a).mpr ha, orDefault,
      parseInt_eq_number_iff (hascii a List.mem_cons_self) ha.natAbs_le]
    exact ⟨fun h b hb => by cases hb; exact h, fun h => h a rfl⟩
  | _ :: _ :: _ => exact iff_of_true (parseInt_default x hx) (by simp)

/-- A start, where main takes the first argument and the page the only one. -/
lemma parseInt_start_iff (hascii : ∀ a ∈ args, SevenBit a) (hfits : ∀ a ∈ args.head?, InLong a) :
    parseInt (orDefault "0".toList args) = number ((args.head?.map strtol).getD 0) ↔
      Command.start.SameNumber args := by
  have hzero : parseInt "0".toList = number 0 := parseInt_default 0 (by decide)
  match args with
  | [] => exact iff_of_true hzero trivial
  | [a] =>
    have ha : InLong a := hfits a rfl
    have hvalue : strtol a = textInt a := (strtol_eq_textInt_iff a).mpr ha
    rw [List.head?_cons, Option.map_some, Option.getD_some, hvalue]
    exact parseInt_eq_number_iff (hascii a List.mem_cons_self) ha.natAbs_le
  | a :: b :: rest =>
    rw [List.head?_cons, Option.map_some, Option.getD_some, orDefault, hzero,
      (number_eq_whole_zero_iff 0).mpr rfl, eq_comm, number_eq_whole_zero_iff, strtol_eq_zero_iff]
    · rfl
    · simp

end

/-- Main and the page read the same number in the arguments of a time or a countdown, up to the
rounding of the script, exactly if the text is plain where it is used. -/
theorem pageNumber_iff {config config' : Configuration} {buffer text : CString} {c : Command}
    {tokens : Tokens} {call : WebCall} {f : Configuration → Tokens → ℕ → Option WebCall}
    (h : mainFront config buffer = some (.dispatch c tokens config'))
    (hc : c ∈ [Command.start, .int, .stop, .walk, .down])
    (hascii : ∀ a ∈ tokens.drop 2, SevenBit a) (hfits : ∀ a ∈ tokens[2]?, c.Fits a)
    (hf : webMgrEntries c = some f) (hcall : f config' tokens tokens.length = some call)
    (htext : call.queued = some text) :
    ∃ v, mainNumber c config' tokens = some v ∧
      ((parseCommand text).number = some (number v) ↔ c.SameNumber (tokens.drop 2)) := by
  obtain ⟨source, args, rfl⟩ := parseLine_command (mainFront_dispatch h).1
  have hentry := mainFront_dispatch_nonneg h
  rw [parseCommand_eq hentry hf hcall htext]
  obtain ⟨res, hentry, hres⟩ := hentry
  rw [show (source :: c.cmd :: args).drop 2 = args from rfl] at hascii ⊢
  rw [show (source :: c.cmd :: args)[2]? = args.head? by cases args <;> rfl] at hfits
  simp only [List.mem_cons, List.not_mem_nil, or_false] at hc
  rcases hc with rfl | rfl | rfl | rfl | rfl
  · refine ⟨_, congrArg some (mainValue_start hentry), ?_⟩
    rw [Command.pageCall, ParsedCall.number, Option.some.injEq]
    exact parseInt_start_iff hascii hfits
  · obtain ⟨a, rest, rfl⟩ :=
      List.exists_cons_of_ne_nil (args_ne_nil_of_mark (.inl rfl) hres hentry)
    have ha : InLong a := hfits a rfl
    refine ⟨_, markTime_eq (.inl rfl) hres hentry, ?_⟩
    rw [(strtol_eq_textInt_iff a).mpr ha, Command.pageCall, ParsedCall.number, Option.some.injEq]
    exact parseInt_joined_iff hascii ha
  · obtain ⟨a, rest, rfl⟩ :=
      List.exists_cons_of_ne_nil (args_ne_nil_of_mark (.inr rfl) hres hentry)
    have ha : InLong a := hfits a rfl
    refine ⟨_, markTime_eq (.inr rfl) hres hentry, ?_⟩
    rw [(strtol_eq_textInt_iff a).mpr ha, Command.pageCall, ParsedCall.number, Option.some.injEq]
    exact parseInt_joined_iff hascii ha
  · refine ⟨_, mainValue_walk config' source args, ?_⟩
    rw [Command.pageCall, ParsedCall.number, Option.some.injEq]
    refine (parseInt_orDefault_iff (x := 420) (by decide) hascii hfits).trans ?_
    match args with
    | [] | _ :: _ :: _ => simp [Command.SameNumber]
    | [a] => simp [Command.SameNumber]
  · refine ⟨_, mainValue_down config' source args, ?_⟩
    rw [Command.pageCall, ParsedCall.number, Option.some.injEq]
    refine (parseInt_orDefault_iff (x := 15) (by decide) hascii hfits).trans ?_
    match args with
    | [] | _ :: _ :: _ => simp [Command.SameNumber]
    | [a] => simp [Command.SameNumber]

theorem pageNumber_hex :
    ∃ v, mainNumber .start { defaultOptions with status.startTime := 0 }
        ["comm_server".toList, "start".toList, "0x10".toList] = some v ∧
      ((parseCommand "start 0x10".toList).number = some (number v) ↔
        Command.start.SameNumber ["0x10".toList]) :=
  @pageNumber_iff defaultOptions _ "comm_server start 0x10".toList _ .start _
    (.send "start 0x10".toList) webMgrSendStart (by decide) (by decide)
    (List.forall_mem_singleton.mpr (by decide))
    (fun a ha => by cases ha; exact ⟨by decide, by decide⟩) rfl (by decide) rfl

end SerialChrono
