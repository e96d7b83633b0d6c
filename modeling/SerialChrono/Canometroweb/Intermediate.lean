import SerialChrono.Canometroweb.Polling

/-!
# Intermediate times

The chronometer has no flag for an intermediate time: it shows the time, standing still, while it
goes on running.  `module_read` takes a time that is the stored one for an intermediate time, and
has no memory of having sent it, so a display that stands still for `k` polls is reported `k - 1`
times, and once more if its time was stored before the first of them.

`ints_once_iff` is about the log of a run of polls: each stretch of polls that see a running
chronometer at one time is reported exactly once if and only if the stretches are of two polls.
-/

namespace SerialChrono

open CText PartialRun

variable {D : Type} (dev : Device D) (readXml : XmlReader)

/-! ## The reports of a time -/

/-- The chronometer is running, and shows this time. -/
def CanometrowebData.RunsAt (data : CanometrowebData) (tiempo : ℤ) : Prop :=
  data.running ≠ 0 ∧ data.tiempo = tiempo

instance (data : CanometrowebData) (tiempo : ℤ) : Decidable (data.RunsAt tiempo) :=
  inferInstanceAs (Decidable (_ ∧ _))

/-- The polls of a list that report this intermediate time. -/
def intCount (tiempo : ℤ) (polls : List Poll) : ℕ :=
  polls.countP fun p => p.buffer = (Report.int tiempo).text

/-- A maximal block of two or more polls that see a running chronometer at one time, and what is
before and after it in the log. -/
structure IsBlock (polls before block after : List Poll) (tiempo : ℤ) : Prop where
  polls : polls = before ++ block ++ after
  length : 2 ≤ block.length
  nonzero : tiempo ≠ 0
  runs : ∀ p ∈ block, p.seen.RunsAt tiempo
  first : ∀ p ∈ before.getLast?, ¬ p.seen.RunsAt tiempo
  last : ∀ p ∈ after.head?, ¬ p.seen.RunsAt tiempo

/-- Each intermediate time is reported once. -/
def PollRun.IntsOnce (r : PollRun D) : Prop :=
  ∀ before block after tiempo, IsBlock r.polls before block after tiempo →
    intCount tiempo block = 1

/-- Each intermediate time is seen twice, and is not the time that was stored before the first
poll of the log. -/
def PollRun.IntsSeenTwice (stored : CanometrowebData) (r : PollRun D) : Prop :=
  ∀ before block after tiempo, IsBlock r.polls before block after tiempo →
    block.length = 2 ∧ (before = [] → ¬ stored.RunsAt tiempo)

lemma CanometrowebData.SameRun.runsAt_iff {a b : CanometrowebData} (h : a.SameRun b)
    (tiempo : ℤ) : a.RunsAt tiempo ↔ b.RunsAt tiempo := by
  unfold CanometrowebData.RunsAt
  rw [h.1, h.2]

/-- A poll reports the time it sees exactly if that time is the stored one. -/
lemma pollText_int_iff (config : Configuration) {stored received : CanometrowebData} {tiempo : ℤ}
    (htiempo : tiempo ≠ 0) (hreceived : received.RunsAt tiempo) :
    pollText config stored received = (Report.int tiempo).text ↔ stored.RunsAt tiempo := by
  obtain ⟨hrunning, rfl⟩ := hreceived
  by_cases hstored : stored.RunsAt received.tiempo
  · have hreport : report stored received = some (.int received.tiempo) := by
      obtain ⟨hwas, hsame⟩ := hstored
      simp [report, hrunning, hwas, hsame, htiempo]
    refine iff_of_true ?_ hstored
    rw [pollText, hreport]
  · refine iff_of_false (fun htext => ?_) hstored
    have hreport : report stored received = some .start ∨ report stored received = none := by
      unfold report
      rw [if_neg hrunning, if_neg htiempo]
      by_cases hwas : stored.running = 0
      · exact Or.inl (if_pos hwas)
      · have hmoved : stored.tiempo ≠ received.tiempo := fun hsame => hstored ⟨hwas, hsame⟩
        rw [if_neg hwas, if_neg hmoved, ite_self]
        exact Or.inr rfl
    obtain ⟨r, hr, hsame⟩ := report_of_pollText htext
    rcases hreport with hstart | hnone
    · -- a start is not an intermediate time
      rw [hstart] at hr
      cases hr
      have hlimit : isRunLimit Report.start.text = isRunLimit (Report.int received.tiempo).text :=
        congrArg isRunLimit hsame
      exact Bool.noConfusion hlimit
    · rw [hnone] at hr
      cases hr

/-! ## What the log remembers -/

/-- The second poll has compared its data with those of the first. -/
def Compares (p q : Poll) : Prop :=
  ∃ config stored, stored.SameRun p.seen ∧ q.buffer = pollText config stored q.seen

/-- The log, behind the data stored before it. -/
def PollRun.history (stored : CanometrowebData) (r : PollRun D) : List Poll :=
  ⟨stored, []⟩ :: r.polls

/-- Each poll of the log has compared its data with the ones before, and the last are stored. -/
structure PollRun.Compared (stored : CanometrowebData) (r : PollRun D) : Prop where
  chain : (r.history stored).IsChain Compares
  last : ∀ p ∈ (r.history stored).getLast?, r.driver.cwData.SameRun p.seen

lemma compared_step {stored : CanometrowebData} {r t : PollRun D} {event : PollEvent D}
    (hr : r.Compared stored) (hevent : ¬ event.IsStatus)
    (h : pollStep dev readXml r event = some t) : t.Compared stored := by
  rcases pollStep_cases dev readXml hevent h with ⟨hpolls, hrun⟩ | ⟨config, data, hpolls, hrun⟩
  · have hhistory : t.history stored = r.history stored := congrArg (List.cons _) hpolls
    refine ⟨?_, fun p hp => ?_⟩
    · rw [hhistory]
      exact hr.chain
    · rw [hhistory] at hp
      exact hrun.trans (hr.last p hp)
  · have hhistory : t.history stored =
        r.history stored ++ [⟨data, pollText config r.driver.cwData data⟩] :=
      congrArg (List.cons _) hpolls
    refine ⟨?_, fun p hp => ?_⟩
    · rw [hhistory, List.isChain_append]
      refine ⟨hr.chain, List.isChain_singleton _, fun p hp q hq => ?_⟩
      obtain rfl := Option.mem_some_iff.mp hq
      exact ⟨config, r.driver.cwData, hr.last p hp, rfl⟩
    · rw [hhistory, List.getLast?_concat, Option.mem_some_iff] at hp
      rw [← hp]
      exact hrun

/-! ## Counting -/

section Counting

variable {p q : Poll} {block : List Poll} {tiempo : ℤ}

lemma Compares.int_iff (h : Compares p q) (htiempo : tiempo ≠ 0) (hq : q.seen.RunsAt tiempo) :
    q.buffer = (Report.int tiempo).text ↔ p.seen.RunsAt tiempo := by
  obtain ⟨config, stored, hsame, hbuffer⟩ := h
  rw [hbuffer, pollText_int_iff config htiempo hq, hsame.runsAt_iff]

/-- After a poll at that time, each poll at that time reports it. -/
lemma intCount_of_runsAt (hchain : (p :: block).IsChain Compares) (htiempo : tiempo ≠ 0)
    (hp : p.seen.RunsAt tiempo) (hblock : ∀ q ∈ block, q.seen.RunsAt tiempo) :
    intCount tiempo block = block.length := by
  induction block generalizing p with
  | nil => rfl
  | cons q block ih =>
    obtain ⟨hcompares, hrest⟩ := List.isChain_cons_cons.mp hchain
    obtain ⟨hq, hblock⟩ := List.forall_mem_cons.mp hblock
    have hint : q.buffer = (Report.int tiempo).text := (hcompares.int_iff htiempo hq).mpr hp
    have hcount : intCount tiempo (q :: block) = intCount tiempo block + 1 :=
      List.countP_cons_of_pos (decide_eq_true hint)
    rw [hcount, ih hrest hq hblock, List.length_cons]

/-- The first poll at that time reports it only if the one before it was at that time too. -/
lemma intCount_cons (hchain : (p :: q :: block).IsChain Compares) (htiempo : tiempo ≠ 0)
    (hblock : ∀ q' ∈ q :: block, q'.seen.RunsAt tiempo) :
    intCount tiempo (q :: block) = block.length + if p.seen.RunsAt tiempo then 1 else 0 := by
  obtain ⟨hcompares, hrest⟩ := List.isChain_cons_cons.mp hchain
  obtain ⟨hq, hblock⟩ := List.forall_mem_cons.mp hblock
  rw [intCount, List.countP_cons, ← intCount, intCount_of_runsAt hrest htiempo hq hblock]
  simp only [decide_eq_true_eq, hcompares.int_iff htiempo hq]

end Counting

/-- A block is reported one time less than it is seen, or as often as it is seen if its time was
stored before the first poll. -/
lemma intCount_block {stored : CanometrowebData} {r : PollRun D} (hr : r.Compared stored)
    {before block after : List Poll} {tiempo : ℤ}
    (hblock : IsBlock r.polls before block after tiempo) :
    intCount tiempo block + 1 =
      block.length + if before = [] ∧ stored.RunsAt tiempo then 1 else 0 := by
  obtain ⟨q, rest, rfl⟩ := List.exists_cons_of_length_pos (show 0 < block.length by
    have := hblock.length
    omega)
  obtain ⟨p, hlink, hp⟩ : ∃ p, (p :: q :: rest).IsChain Compares ∧
      (p.seen.RunsAt tiempo ↔ before = [] ∧ stored.RunsAt tiempo) := by
    have hchain := hr.chain
    rw [PollRun.history, hblock.polls] at hchain
    rcases List.eq_nil_or_concat' before with rfl | ⟨initial, p, rfl⟩
    · have hlink : (⟨stored, []⟩ :: q :: rest).IsChain Compares :=
        List.IsChain.left_of_append hchain
      exact ⟨_, hlink, by simp⟩
    · have hsplit : (⟨stored, []⟩ :: (initial ++ [p] ++ (q :: rest) ++ after) : List Poll) =
          (⟨stored, []⟩ :: initial) ++ ((p :: q :: rest) ++ after) := by simp
      rw [hsplit] at hchain
      have hbefore := hblock.first p List.getLast?_concat
      exact ⟨p, hchain.right_of_append.left_of_append, iff_of_false hbefore (by simp)⟩
  rw [intCount_cons hlink hblock.nonzero hblock.runs, List.length_cons]
  simp only [hp]
  omega

/-- A run whose polls have compared their data reports each time once exactly if each is seen
twice. -/
lemma intsOnce_iff {stored : CanometrowebData} {r : PollRun D} (hr : r.Compared stored) :
    r.IntsOnce ↔ r.IntsSeenTwice stored := by
  refine forall_congr' fun before => forall_congr' fun block => ?_
  refine forall_congr' fun after => forall_congr' fun tiempo => ?_
  refine forall_congr' fun hblock => ?_
  have hcount := intCount_block hr hblock
  have hlength := hblock.length
  split_ifs at hcount with hstored
  · exact iff_of_false (by omega) fun h => h.2 hstored.1 hstored.2
  · rw [not_and] at hstored
    rw [and_iff_left hstored]
    omega

/-! ## The runs -/

lemma compared_start (cwData : CanometrowebData) (cwConfig : CanometrowebConfig) (device : D) :
    (PollRun.start cwData cwConfig device).Compared cwData := by
  refine ⟨List.isChain_singleton _, fun p hp => ?_⟩
  obtain rfl := Option.mem_some_iff.mp hp
  exact ⟨rfl, rfl⟩

/-- **When an intermediate time is reported once.** In every run of polls and of commands other
than `status`, from any data stored: each maximal block of two or more polls that see a running
chronometer at one time sends exactly one `INT` with that time, if and only if each such block
is of two polls and its time was not stored before the first poll. -/
theorem ints_once_iff (cwData : CanometrowebData) (cwConfig : CanometrowebConfig) (device : D)
    {events : List (PollEvent D)} (hevents : ∀ event ∈ events, ¬ event.IsStatus) :
    Always (pollStep dev readXml) (fun r => r.IntsOnce ↔ r.IntsSeenTwice cwData)
      (.start cwData cwConfig device) events := by
  have hcompared : Always (pollStep dev readXml) (PollRun.Compared cwData)
      (.start cwData cwConfig device) events :=
    always_of_along (fun r event t hr hevent h => compared_step dev readXml hr hevent h)
      (compared_start cwData cwConfig device) (along_of_forall hevents _)
  exact hcompared.imp fun r hr => intsOnce_iff hr

/-- A time that stands still for two polls. -/
theorem ints_once_iff_display :
    Always (pollStep displayDevice flatXml) (fun r => r.IntsOnce ↔ r.IntsSeenTwice .zero)
      displayStart (displayPolls [(1, 0), (1, 70), (1, 70), (1, 90), (0, 95)]) :=
  ints_once_iff displayDevice flatXml .zero .zero (0, 0) (by
    intro event hevent
    obtain ⟨display, -, rfl⟩ := List.mem_map.mp hevent
    exact id)

/-- A time that stands still for three polls is reported twice. -/
theorem ints_twice :
    ¬ ∀ displays, Always (pollStep displayDevice flatXml) PollRun.IntsOnce displayStart
      (displayPolls displays) := by
  intro h
  have hpolls : (run (pollStep displayDevice flatXml) displayStart
      (displayPolls [(1, 0), (1, 70), (1, 70), (1, 70)])).map PollRun.polls =
        some [⟨.shows 1 0, "START 0\n".toList⟩, ⟨.shows 1 70, []⟩,
          ⟨.shows 1 70, "INT 70\n".toList⟩, ⟨.shows 1 70, "INT 70\n".toList⟩] := by
    decide
  obtain ⟨r, hr, hpolls⟩ := Option.map_eq_some_iff.mp hpolls
  have hall := (h [(1, 0), (1, 70), (1, 70), (1, 70)]).of_run hr
  have hblock : IsBlock r.polls [⟨.shows 1 0, "START 0\n".toList⟩]
      [⟨.shows 1 70, []⟩, ⟨.shows 1 70, "INT 70\n".toList⟩, ⟨.shows 1 70, "INT 70\n".toList⟩]
      [] 70 := by
    refine ⟨hpolls, by decide, by decide, by decide, by decide, by decide⟩
  exact absurd (hall _ _ _ _ hblock) (by decide)

end SerialChrono
