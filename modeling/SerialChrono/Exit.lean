import SerialChrono.MainLoop

/-!
# What ends the program

Main clears `loop` when no manager thread is alive, and when the text of the datagram contains
"exit" anywhere, in any letter case.  The second test runs over the whole text and not over the
command, so any argument can pass it.

`LoopLog` records the datagrams during which the loop was ended, with the number of threads
alive then.  While some thread is alive, the loop is ended by `exit` commands only, along a
whole run, exactly when every datagram that reaches the threads and is not an `exit` command is
free of that word (`only_exit_ends_iff`).
-/

namespace SerialChrono

open CText PartialRun

variable {W : Type}

/-- The second token of a line, in lower case. -/
def commandToken (buffer : CString) : Option CString :=
  (explode buffer ' ').bind fun tokens => tokens[1]?.map toLower

/-- A datagram that ended the loop. -/
structure Ending where
  buffer : CString
  /-- The manager threads alive when it was handled. -/
  alive : ℕ
  deriving DecidableEq, Repr

/-- The main loop and the datagrams that ended it. -/
structure LoopLog (W : Type) where
  main : MainState W
  endings : List Ending

/-- The start of the loop. -/
def LoopLog.start (config : Configuration) (world : W) : LoopLog W :=
  ⟨{ config, world, loop := true }, []⟩

def Arrival.alive (a : Arrival W) : ℕ := a.managers.countP ThreadSlot.isAlive

/-- One datagram, recorded.  Nothing is received once the loop has ended. -/
def logStep (log : LoopLog W) (a : Arrival W) : Option (LoopLog W) :=
  if log.main.loop then do
    let buffer ← receive a.datagram
    let (main, _) ← mainStep log.main a
    let endings := if main.loop then log.endings else log.endings ++ [⟨buffer, a.alive⟩]
    return { main, endings }
  else none

/-- Every datagram that ended the loop while a thread was alive is an `exit` command. -/
def LoopLog.OnlyExitEnds (log : LoopLog W) : Prop :=
  ∀ e ∈ log.endings, 0 < e.alive → commandToken e.buffer = some "exit".toList

/-- The text contains "exit", whatever the letter case. -/
def MentionsExit (buffer : CString) : Prop := toUpper "exit".toList <:+: toUpper buffer

/-- The datagram cannot end the loop wrongly: it is an `exit` command, or it is answered before
the threads are reached, or it does not mention "exit". -/
def LoopLog.Harmless (log : LoopLog W) (a : Arrival W) : Prop :=
  0 < a.alive → ∀ buffer ∈ receive a.datagram,
    commandToken buffer = some "exit".toList ∨ Rejected log.main.config buffer ∨
      ¬ MentionsExit buffer

/-- The loop goes on after a pass exactly when the line was answered at once, or some thread is
alive and the text does not mention "exit". -/
lemma mainStep_loop {s t : MainState W} {a : Arrival W} {buffer : CString} {response : Response}
    (hbuffer : receive a.datagram = some buffer) (h : mainStep s a = some (t, response)) :
    t.loop = true ↔
      s.loop = true ∧ (Rejected s.config buffer ∨ 0 < a.alive ∧ ¬ MentionsExit buffer) := by
  obtain ⟨b, hb, h⟩ := Option.bind_eq_some_iff.mp h
  rw [hbuffer] at hb
  cases hb
  obtain ⟨front, hfront, h⟩ := Option.bind_eq_some_iff.mp h
  rw [← mainFront_answered_iff hfront]
  cases front with
  | answered r config =>
    cases h
    simp
  | dispatch c tokens config =>
    obtain ⟨r, hr, h⟩ := Option.bind_eq_some_iff.mp h
    cases h
    have halive : r.alive = a.alive := by simpa [Arrival.alive] using threadLoop_alive hr
    have hexit : 0 ≤ stripos buffer "exit".toList ↔ MentionsExit buffer :=
      stripos_nonneg_iff (by decide) buffer
    simp only [halive, reduceCtorEq, exists_false, false_or]
    by_cases hm : MentionsExit buffer
    · rw [if_pos (hexit.mpr hm)]
      simp [hm]
    · rw [if_neg (hexit.not.mpr hm)]
      by_cases h0 : a.alive = 0
      · simp [h0]
      · simp [hm, h0, Nat.pos_of_ne_zero h0]

/-- One datagram: only an `exit` command has ended the loop if that was so before and the
datagram is harmless. -/
lemma onlyExitEnds_step_iff {log t : LoopLog W} {a : Arrival W} (hlog : log.OnlyExitEnds)
    (h : logStep log a = some t) : t.OnlyExitEnds ↔ log.Harmless a := by
  unfold logStep at h
  split at h
  · next hloop =>
    obtain ⟨buffer, hbuffer, h⟩ := Option.bind_eq_some_iff.mp h
    obtain ⟨⟨main, response⟩, hmain, h⟩ := Option.bind_eq_some_iff.mp h
    cases h
    have hnext := mainStep_loop hbuffer hmain
    simp only [hloop, true_and] at hnext
    simp only [LoopLog.Harmless, hbuffer, Option.mem_def, Option.some.injEq, forall_eq']
    by_cases hgo : main.loop = true
    · simp only [LoopLog.OnlyExitEnds, hgo, if_true]
      refine iff_of_true hlog fun _ => ?_
      rcases hnext.mp hgo with hrej | ⟨-, hmention⟩
      · exact Or.inr (Or.inl hrej)
      · exact Or.inr (Or.inr hmention)
    · -- the datagram is recorded: it was dispatched, and mentions "exit" if a thread is alive
      rw [hnext, not_or, not_and_not_right] at hgo
      obtain ⟨hrej, hmention⟩ := hgo
      have hstop : main.loop = false := by
        rw [← Bool.not_eq_true, hnext]
        tauto
      simp only [LoopLog.OnlyExitEnds, hstop, Bool.false_eq_true, if_false, List.mem_append,
        List.mem_singleton, hrej, false_or]
      constructor
      · intro hend halive
        exact Or.inl (hend ⟨buffer, a.alive⟩ (Or.inr rfl) halive)
      · rintro hexit e (he | rfl) halive
        · exact hlog e he halive
        · exact (hexit halive).resolve_right (not_not.mpr (hmention halive))
  · cases h

/-- **When only `exit` commands end the program.** For every sequence of datagrams and thread
tables, whatever the handlers of the threads do: every datagram that ends the loop while a
thread is alive is an `exit` command if and only if each datagram handled while a thread is
alive is an `exit` command, or is answered before the threads are reached, or does not contain
"exit" in any letter case. -/
theorem only_exit_ends_iff (config : Configuration) (world : W) (arrivals : List (Arrival W)) :
    Always logStep LoopLog.OnlyExitEnds (LoopLog.start config world) arrivals ↔
      Along logStep LoopLog.Harmless (LoopLog.start config world) arrivals :=
  always_iff_along_of_step (fun _ _ _ => onlyExitEnds_step_iff)
    (by simp [LoopLog.OnlyExitEnds, LoopLog.start])

/-- A thread slot in use whose table has no handlers. -/
def idleSlot : ThreadSlot Unit := ⟨0, some fun _ => none⟩

/-- `MSG 5 exit on the left` from a browser ends the program. -/
theorem msg_ends_the_loop :
    ¬ ∀ (config : Configuration) (arrivals : List (Arrival Unit)),
      Always logStep LoopLog.OnlyExitEnds (LoopLog.start config ()) arrivals := by
  intro h
  have hrun := always_iff_run.mp (h defaultOptions
    [⟨"web_server MSG 5 exit on the left".toList, fun _ => idleSlot⟩])
  obtain ⟨t, ht, hend⟩ : ∃ t, run logStep (LoopLog.start defaultOptions ())
      [⟨"web_server MSG 5 exit on the left".toList, fun _ => idleSlot⟩] = some t ∧
      t.endings = [⟨"web_server MSG 5 exit on the left".toList, 4⟩] := ⟨_, rfl, rfl⟩
  have hinc := hrun _ t (List.prefix_refl _) ht _ (by rw [hend]; exact List.mem_singleton_self _)
  exact absurd (hinc (by decide)) (by decide)

end SerialChrono
