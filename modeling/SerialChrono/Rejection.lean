import SerialChrono.Exit

/-!
# Datagrams main rejects (`main.c`)

Main answers a datagram with an error before it turns to the threads if it has fewer than two
tokens, if its command word is not in `command_list`, or if the `main_mgr` handler returns a
negative value.  `mainPass` is a pass of the loop up to the threads, with the entries of
`command_list` and `main_mgr_entries` it reads and the thread handlers it calls.

The search leaves `index` at -1 for a word it does not find, and the test after it,
`command_list[index].index<0`, then reads before the table.  `outside` is the number found there:
if it happens to be negative main answers ERROR, and otherwise it goes on with
`main_mgr_entries[-1]`, for which nothing is defined.
-/

namespace SerialChrono

open CText

/-! ## The tables -/

/-- An access to an entry of one of the two tables. -/
inductive TableAccess
  | commandList (n : ℤ)
  | mainMgrEntries (n : ℤ)
  deriving DecidableEq, Repr

def TableAccess.index : TableAccess → ℤ
  | .commandList n => n
  | .mainMgrEntries n => n

/-- Both tables have 32 entries. -/
def TableAccess.InTable (access : TableAccess) : Prop := 0 ≤ access.index ∧ access.index < 32

instance (access : TableAccess) : Decidable access.InTable :=
  inferInstanceAs (Decidable (_ ∧ _))

/-- The search of `command_list` for a word, from entry `n`: what it reads, the sentinel
included, and the `index` it leaves. -/
def searchLoop (word : CString) : List Command → (n : ℕ) → List TableAccess × ℤ
  | [], n => ([.commandList n], -1)
  | c :: cs, n =>
    if c.cmd = word then ([.commandList n], n)
    else
      let r := searchLoop word cs (n + 1)
      (.commandList n :: r.1, r.2)

/-- `command_list[index].index`. -/
def commandListIndex (outside index : ℤ) : ℤ := if index < 0 then outside else index

/-! ## A pass up to the threads -/

/-- What main has read and done before it turns to the threads. -/
structure FrontPass where
  accesses : List TableAccess
  front : Option Front

def frontPass (outside : ℤ) (config : Configuration) (buffer : CString) : FrontPass :=
  match explode buffer ' ' with
  | none => ⟨[], none⟩
  | some tokens =>
    if tokens.length < 2 then ⟨[], some (.answered .error config)⟩
    else
      match tokens[1]? with
      | none => ⟨[], none⟩
      | some word =>
        if word = [] then ⟨[], some (.answered .ok config)⟩
        else
          let search := searchLoop (toLower word) commandList 0
          let accesses := search.1 ++ [.commandList search.2]
          if commandListIndex outside search.2 < 0 then
            ⟨accesses, some (.answered .error config)⟩
          else
            let accesses := accesses ++ [.mainMgrEntries search.2]
            if search.2 < 0 then ⟨accesses, none⟩
            else
              match commandList[search.2.toNat]? with
              | none => ⟨accesses, none⟩
              | some c =>
                let tokens := tokens.set 1 (toLower word)
                ⟨accesses, (mainMgrEntries c config tokens tokens.length).map fun r =>
                  if r.1 < 0 then .answered .mainMgrError r.2 else .dispatch c tokens r.2⟩

variable {W : Type}

/-- The slots whose handler the loop over the threads calls. -/
def threadCalls (c : Command) : List (ThreadSlot W) → (n : ℕ) → List ℕ
  | [], _ => []
  | slot :: slots, n =>
    if slot.index < 0 then threadCalls c slots (n + 1)
    else
      match slot.entries.bind fun entries => entries c with
      | none => threadCalls c slots (n + 1)
      | some _ => n :: threadCalls c slots (n + 1)

/-- What main has read, done and called for a datagram. -/
structure MainPass extends FrontPass where
  calls : List ℕ

def Front.calls (slots : List (ThreadSlot W)) : Front → List ℕ
  | .answered _ _ => []
  | .dispatch c _ _ => threadCalls c slots 0

def mainPass (outside : ℤ) (config : Configuration) (a : Arrival W) : MainPass :=
  match receive a.datagram with
  | none => ⟨⟨[], none⟩, []⟩
  | some buffer =>
    let pass := frontPass outside config buffer
    ⟨pass, (pass.front.map (Front.calls a.managers)).getD []⟩

/-- Main has answered with an error before the threads. -/
def MainPass.Rejected (pass : MainPass) : Prop :=
  ∃ response config, pass.front = some (.answered response config) ∧ response ≠ .ok

/-- Nothing was changed or called, and only entries of the tables were read. -/
structure MainPass.Harmless (pass : MainPass) (config : Configuration) : Prop where
  status : ∀ front ∈ pass.front, front.config.status = config.status
  calls : pass.calls = []
  accesses : ∀ access ∈ pass.accesses, access.InTable

/-- The command word of the datagram, if main gets to look for it, is in `command_list`. -/
def WordKnown (datagram : List Char) : Prop :=
  ∀ buffer ∈ receive datagram, ∀ word ∈ commandToken buffer,
    word = [] ∨ (findCommand word).isSome = true

/-! ## The search -/

/-- The search reads up to the word it finds, or to the sentinel. -/
lemma searchLoop_accesses (word : CString) (cs : List Command) (n : ℕ) :
    ∀ access ∈ (searchLoop word cs n).1, 0 ≤ access.index ∧ access.index ≤ n + cs.length := by
  induction cs generalizing n with
  | nil =>
    intro access haccess
    cases List.mem_singleton.mp haccess
    simp [TableAccess.index]
  | cons c cs ih =>
    intro access haccess
    unfold searchLoop at haccess
    split_ifs at haccess
    · cases List.mem_singleton.mp haccess
      simp [TableAccess.index]
      omega
    · rcases List.mem_cons.mp haccess with rfl | hrest
      · simp [TableAccess.index]
        omega
      · have hbounds := ih (n + 1) access hrest
        rw [List.length_cons]
        omega

/-- The index it leaves is that of the command found, or -1. -/
lemma searchLoop_index (word : CString) (cs : List Command) (n : ℕ) :
    (searchLoop word cs n).2 = -1 ∧ cs.find? (fun c => c.cmd == word) = none ∨
      ∃ i c, (searchLoop word cs n).2 = (n + i : ℕ) ∧ cs[i]? = some c ∧
        cs.find? (fun c => c.cmd == word) = some c := by
  induction cs generalizing n with
  | nil => exact .inl ⟨rfl, rfl⟩
  | cons c cs ih =>
    unfold searchLoop
    by_cases hc : c.cmd = word
    · rw [if_pos hc]
      exact .inr ⟨0, c, rfl, rfl, List.find?_cons_of_pos (beq_iff_eq.mpr hc)⟩
    · have hfind : (c :: cs).find? (fun c => c.cmd == word) = cs.find? fun c => c.cmd == word :=
        List.find?_cons_of_neg (mt beq_iff_eq.mp hc)
      rw [if_neg hc, hfind]
      rcases ih (n + 1) with hnone | ⟨i, d, hindex, hd, hfind⟩
      · exact .inl hnone
      · refine .inr ⟨i + 1, d, ?_, hd, hfind⟩
        rw [hindex, Nat.add_right_comm, Nat.add_assoc]

/-- The search for a command leaves its index. -/
lemma searchLoop_commandList (word : CString) :
    (searchLoop word commandList 0).2 = -1 ∧ findCommand word = none ∨
      ∃ (i : ℕ) (c : Command), (searchLoop word commandList 0).2 = i ∧ commandList[i]? = some c ∧
        findCommand word = some c := by
  rcases searchLoop_index word commandList 0 with hnone | ⟨i, c, hindex, hc, hfind⟩
  · exact .inl hnone
  · rw [Nat.zero_add] at hindex
    exact .inr ⟨i, c, hindex, hc, hfind⟩

lemma searchLoop_inTable (word : CString) :
    ∀ access ∈ (searchLoop word commandList 0).1, access.InTable := by
  intro access haccess
  have hbounds := searchLoop_accesses word commandList 0 access haccess
  have hlength : commandList.length = 24 := rfl
  unfold TableAccess.InTable
  omega

/-! ## The pass -/

lemma commandToken_of_explode {buffer : CString} {tokens : Tokens}
    (h : explode buffer ' ' = some tokens) : commandToken buffer = tokens[1]?.map toLower := by
  rw [commandToken, h, Option.bind_some]

/-- The pass for a word that the search finds. -/
lemma frontPass_of_found {buffer word : CString} {tokens : Tokens} {i : ℕ} {c : Command}
    (htokens : explode buffer ' ' = some tokens) (htwo : ¬ tokens.length < 2)
    (hword : tokens[1]? = some word) (hne : word ≠ [])
    (hindex : (searchLoop (toLower word) commandList 0).2 = i) (hc : commandList[i]? = some c)
    (hfind : findCommand (toLower word) = some c) (outside : ℤ) (config : Configuration) :
    (frontPass outside config buffer).front = mainFront config buffer ∧
      ∀ access ∈ (frontPass outside config buffer).accesses, access.InTable := by
  have hi : i < 24 := (List.getElem?_eq_some_iff.mp hc).1
  have hpos : ¬ ((i : ℤ) < 0) := by omega
  unfold frontPass mainFront parseLine
  simp only [htokens, Option.bind_eq_bind, Option.bind_some, htwo, if_false, hword, hne, hindex,
    commandListIndex, hpos, Int.toNat_natCast, hc, hfind, Option.pure_def]
  refine ⟨?_, ?_⟩
  · rcases mainMgrEntries c config (tokens.set 1 (toLower word))
      (tokens.set 1 (toLower word)).length with - | r
    · rfl
    · simp only [Option.map_some, Option.bind_some]
      split <;> rfl
  · intro access haccess
    simp only [List.mem_append, List.mem_singleton] at haccess
    rcases haccess with (hsearch | rfl) | rfl
    · exact searchLoop_inTable _ access hsearch
    all_goals
      unfold TableAccess.InTable TableAccess.index
      dsimp only
      omega

/-- If the word is known, the pass is that of the partial model, and reads within the tables. -/
lemma frontPass_of_known {buffer : CString}
    (h : ∀ word ∈ commandToken buffer, word = [] ∨ (findCommand word).isSome = true)
    (outside : ℤ) (config : Configuration) :
    (frontPass outside config buffer).front = mainFront config buffer ∧
      ∀ access ∈ (frontPass outside config buffer).accesses, access.InTable := by
  rcases htokens : explode buffer ' ' with - | tokens
  · simp [frontPass, mainFront, parseLine, htokens]
  by_cases htwo : tokens.length < 2
  · simp only [frontPass, mainFront, parseLine, htokens, Option.bind_eq_bind, Option.bind_some,
      htwo, if_true]
    exact ⟨rfl, List.forall_mem_nil _⟩
  rcases hword : tokens[1]? with - | word
  · simp only [frontPass, mainFront, parseLine, htokens, Option.bind_eq_bind, Option.bind_some,
      htwo, if_false, hword]
    exact ⟨rfl, List.forall_mem_nil _⟩
  by_cases hempty : word = []
  · simp only [frontPass, mainFront, parseLine, htokens, Option.bind_eq_bind, Option.bind_some,
      htwo, if_false, hword, hempty, if_true]
    exact ⟨rfl, List.forall_mem_nil _⟩
  rw [commandToken_of_explode htokens, hword] at h
  have hlower : toLower word ≠ [] := by simpa [toLower] using hempty
  have hknown := (h (toLower word) rfl).resolve_left hlower
  rcases searchLoop_commandList (toLower word) with ⟨-, hnone⟩ | ⟨i, c, hindex, hc, hfind⟩
  · rw [hnone] at hknown
    cases hknown
  · exact frontPass_of_found htokens htwo hword hempty hindex hc hfind outside config

/-- For a word that is not known, main reads before the table. -/
lemma frontPass_of_unknown {buffer word : CString} (hword : commandToken buffer = some word)
    (hne : word ≠ []) (hnone : findCommand word = none) (config : Configuration) :
    (frontPass (-1) config buffer).front = some (.answered .error config) ∧
      .commandList (-1) ∈ (frontPass (-1) config buffer).accesses := by
  unfold frontPass
  rcases htokens : explode buffer ' ' with - | tokens
  · simp [commandToken, htokens] at hword
  · rw [commandToken_of_explode htokens] at hword
    obtain ⟨token, htoken, rfl⟩ := Option.map_eq_some_iff.mp hword
    have htwo : ¬ tokens.length < 2 := by
      have := (List.getElem?_eq_some_iff.mp htoken).1
      omega
    have hempty : token ≠ [] := by
      rintro rfl
      exact hne rfl
    rcases searchLoop_commandList (toLower token) with ⟨hindex, -⟩ | ⟨i, d, -, -, hfind⟩
    · simp [htwo, htoken, hempty, hindex, commandListIndex]
    · rw [hfind] at hnone
      cases hnone

/-! ## Rejected datagrams -/

/-- A line that is answered before the threads leaves the configuration as it was. -/
lemma frontPass_answered {outside : ℤ} {config config' : Configuration} {buffer : CString}
    {response : Response}
    (h : (frontPass outside config buffer).front = some (.answered response config')) :
    config' = config := by
  unfold frontPass at h
  split at h
  · cases h
  · split_ifs at h
    · cases h
      rfl
    · split at h
      · cases h
      · dsimp only at h
        split_ifs at h
        · cases h
          rfl
        · cases h
          rfl
        · split at h
          · cases h
          · obtain ⟨⟨res, left⟩, hentry, hfront⟩ := Option.map_eq_some_iff.mp h
            split_ifs at hfront with hneg
            cases hfront
            exact (mainMgrEntries_spec hentry).2 hneg

/-- What comes in undefined is not rejected. -/
lemma receive_of_rejected {outside : ℤ} {config : Configuration} {a : Arrival W}
    (h : (mainPass outside config a).Rejected) :
    ∃ buffer response, receive a.datagram = some buffer ∧
      (frontPass outside config buffer).front = some (.answered response config) ∧
      response ≠ .ok := by
  obtain ⟨response, config', hfront, hresponse⟩ := h
  unfold mainPass at hfront
  rcases hreceive : receive a.datagram with - | buffer
  · rw [hreceive] at hfront
    cases hfront
  · rw [hreceive] at hfront
    have hsame := frontPass_answered hfront
    subst hsame
    exact ⟨buffer, response, rfl, hfront, hresponse⟩

lemma mainPass_of_receive {a : Arrival W} {buffer : CString}
    (h : receive a.datagram = some buffer) (outside : ℤ) (config : Configuration) :
    mainPass outside config a =
      ⟨frontPass outside config buffer,
        ((frontPass outside config buffer).front.map (Front.calls a.managers)).getD []⟩ := by
  rw [mainPass, h]

/-- **Rejected datagrams.** Whatever lies in the memory before `command_list`, a datagram that
main rejects leaves the status alone, reaches no handler of a thread, and is looked up within
the tables: this holds of every datagram, status and table of threads for which the command
word, if main gets to look for it, is a command, and of no other. -/
theorem rejected_harmless_iff (config : Configuration) (a : Arrival W) :
    (∀ outside, (mainPass outside config a).Rejected →
        (mainPass outside config a).Harmless config) ↔ WordKnown a.datagram := by
  constructor
  · intro h buffer hbuffer word hword
    by_contra hunknown
    rw [not_or, Option.not_isSome_iff_eq_none] at hunknown
    obtain ⟨hne, hnone⟩ := hunknown
    obtain ⟨hfront, hbefore⟩ := frontPass_of_unknown hword hne hnone config
    have hpass := mainPass_of_receive (a := a) hbuffer (-1) config
    have hrejected : (mainPass (-1) config a).Rejected := by
      rw [hpass]
      exact ⟨.error, config, hfront, by decide⟩
    have haccess := (h (-1) hrejected).accesses (.commandList (-1))
    rw [hpass] at haccess
    exact absurd (haccess hbefore) (by decide)
  · intro hknown outside hrejected
    obtain ⟨buffer, response, hreceive, hfront, -⟩ := receive_of_rejected hrejected
    obtain ⟨-, haccesses⟩ := frontPass_of_known (hknown buffer hreceive) outside config
    rw [mainPass_of_receive hreceive]
    refine ⟨?_, ?_, haccesses⟩
    · rw [hfront]
      rintro front ⟨⟩
      rfl
    · rw [hfront]
      rfl

/-- `comm_server hello` reads `command_list[-1]`. -/
theorem unknown_word_reads_before :
    ¬ ∀ (outside : ℤ) (config : Configuration) (a : Arrival Unit),
      (mainPass outside config a).Rejected → (mainPass outside config a).Harmless config := by
  intro h
  let a : Arrival Unit := ⟨"comm_server hello".toList, fun _ => idleSlot⟩
  have hrejected : (mainPass (-1) defaultOptions a).Rejected :=
    ⟨.error, defaultOptions, rfl, by decide⟩
  have haccess := (h (-1) defaultOptions a hrejected).accesses (.commandList (-1)) (by decide)
  exact absurd haccess (by decide)

/-! ## The calls -/

/-- A thread whose handler is not called only counts. -/
lemma threadTurn_of_no_call {c : Command} {ntokens n : ℕ} {slot : ThreadSlot W}
    {slots : List (ThreadSlot W)} {r t : ThreadRound W}
    (hcalls : threadCalls c (slot :: slots) n = [])
    (h : threadTurn c ntokens r n slot = some t) :
    threadCalls c slots (n + 1) = [] ∧ t.config = r.config ∧ t.world = r.world ∧
      t.tokens = r.tokens ∧ t.response = r.response := by
  unfold threadCalls at hcalls
  unfold threadTurn at h
  split_ifs at hcalls h with hindex
  · cases h
    exact ⟨hcalls, rfl, rfl, rfl, rfl⟩
  · rcases hentries : slot.entries with - | entries
    · simp only [hentries, Option.bind_none, Option.some.injEq] at hcalls h
      subst h
      exact ⟨hcalls, rfl, rfl, rfl, rfl⟩
    · rcases hhandler : entries c with - | handler
      · simp only [hentries, hhandler, Option.bind_some, Option.some.injEq] at hcalls h
        subst h
        exact ⟨hcalls, rfl, rfl, rfl, rfl⟩
      · simp [hentries, hhandler] at hcalls

/-- Where no handler is called, the loop over the threads leaves everything but its count. -/
theorem threadLoop_of_no_calls {c : Command} {ntokens : ℕ} {slots : List (ThreadSlot W)} {n : ℕ}
    {r t : ThreadRound W} (hcalls : threadCalls c slots n = [])
    (h : threadLoop c ntokens slots n r = some t) :
    t.config = r.config ∧ t.world = r.world ∧ t.tokens = r.tokens ∧ t.response = r.response := by
  induction slots generalizing n r with
  | nil =>
    cases h
    exact ⟨rfl, rfl, rfl, rfl⟩
  | cons slot slots ih =>
    obtain ⟨u, hu, ht⟩ := Option.bind_eq_some_iff.mp h
    obtain ⟨hrest, hconfig, hworld, htokens, hresponse⟩ := threadTurn_of_no_call hcalls hu
    obtain ⟨hconfig', hworld', htokens', hresponse'⟩ := ih hrest ht
    exact ⟨hconfig'.trans hconfig, hworld'.trans hworld, htokens'.trans htokens,
      hresponse'.trans hresponse⟩

end SerialChrono
