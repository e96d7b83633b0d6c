import SerialChrono.Events.Update
import SerialChrono.Events.Deliver

/-!
# The command of an event as main receives it

The text of a command is cut to the room there is for it, sent in a datagram up to its newline,
and cut into tokens again.  `parseLine_update` gives the tokens main then works on.
-/

namespace SerialChrono

open CText

/-- The tokens in the text after a command word. -/
def restTokens : CString → Tokens
  | [] => []
  | _ :: args => args.splitOn ' '

/-- The part of the text after a command word that is sent to main. -/
def sentRest (c : Command) (rest : CString) : CString :=
  (rest.take (255 - c.cmd.length)).takeWhile (· ≠ '\n')

lemma length_cmd_le (c : Command) : c.cmd.length ≤ 7 := by
  cases c <;> decide

lemma cmd_ne_nil (c : Command) : c.cmd ≠ [] := by
  cases c <;> decide

lemma blank_notMem_cmd (c : Command) : ' ' ∉ c.cmd := by
  cases c <;> decide

lemma newline_notMem_cmd (c : Command) : '\n' ∉ c.cmd := by
  cases c <;> decide

/-- A line with its words separated by one blank. -/
lemma parseLine_words {source : CString} (hsource : ' ' ∉ source) (c : Command) {line : CString}
    (hline : line = [] ∨ ∃ args, line = ' ' :: args) :
    parseLine (source ++ ' ' :: (c.cmd ++ line)) =
      if (restTokens line).length ≤ 30 then
        some (.command c (source :: c.cmd :: restTokens line))
      else none := by
  have hsplit : (source ++ ' ' :: (c.cmd ++ line)).splitOn ' ' =
      source :: c.cmd :: restTokens line := by
    rw [List.splitOn_append_cons_self_of_not_mem hsource]
    rcases hline with rfl | ⟨args, rfl⟩
    · rw [List.append_nil, List.splitOn_eq_singleton (blank_notMem_cmd c), restTokens]
    · rw [List.splitOn_append_cons_self_of_not_mem (blank_notMem_cmd c), restTokens]
  rw [parseLine_of_splitOn hsplit, if_neg (cmd_ne_nil c), toLower_cmd, findCommand_cmd]
  rfl

lemma sentRest_shape (c : Command) {rest : CString}
    (hrest : rest.head? = some ' ' ∨ rest.head? = some '\n') :
    sentRest c rest = [] ∨ ∃ args, sentRest c rest = ' ' :: args := by
  have hlen := length_cmd_le c
  obtain ⟨n, hn⟩ : ∃ n, 255 - c.cmd.length = n + 1 := ⟨254 - c.cmd.length, by omega⟩
  match rest with
  | [] => simp at hrest
  | ch :: rest =>
    rw [List.head?_cons, Option.some.injEq, Option.some.injEq] at hrest
    unfold sentRest
    rw [hn, List.take_succ_cons]
    rcases hrest with rfl | rfl
    · right
      exact ⟨_, List.takeWhile_cons_of_pos (by decide)⟩
    · left
      exact List.takeWhile_cons_of_neg (by decide)

/-- The request for a command, cut to the room there is for it. -/
lemma ajaxRequest_take (c : Command) (rest : CString) :
    ajaxRequest ((c.cmd ++ rest).take 255) = scAjaxsrv ++ ' ' :: (c.cmd ++ sentRest c rest) := by
  have hlen := length_cmd_le c
  have htake : (c.cmd ++ rest).take 255 = c.cmd ++ rest.take (255 - c.cmd.length) := by
    rw [List.take_append, List.take_of_length_le (by omega)]
  have hfits : (scAjaxsrv ++ ' ' :: (c.cmd ++ rest.take (255 - c.cmd.length))).length ≤ 1023 := by
    have hsource : scAjaxsrv.length = 9 := by decide
    simp only [List.length_append, List.length_cons, List.length_take, hsource]
    omega
  have hclean : '\n' ∉ scAjaxsrv ++ ' ' :: c.cmd := by
    rw [List.mem_append, List.mem_cons, not_or, not_or]
    exact ⟨by decide, by decide, newline_notMem_cmd c⟩
  unfold ajaxRequest
  rw [htake, List.take_of_length_le hfits]
  have happend : scAjaxsrv ++ ' ' :: (c.cmd ++ rest.take (255 - c.cmd.length)) =
      (scAjaxsrv ++ ' ' :: c.cmd) ++ rest.take (255 - c.cmd.length) := by simp
  rw [happend, takeWhile_ne_append hclean]
  simp [sentRest]

lemma Update.rest_head {u : Update} {c : Command} (hc : u.command = some c) (s : Status) :
    (u.rest s).head? = some ' ' ∨ (u.rest s).head? = some '\n' := by
  cases u with
  | nothing | init _ _ | «open» _ _ => cases hc
  | order c args => cases args <;> simp [Update.rest]
  | dog v => exact .inl rfl
  | call c => exact .inl rfl

/-- The tokens main works on for the command of an event. -/
lemma parseLine_update {u : Update} {c : Command} (hc : u.command = some c) (s : Status) :
    parseLine (ajaxRequest ((u.text s).take 255)) =
      if (restTokens (sentRest c (u.rest s))).length ≤ 30 then
        some (.command c (scAjaxsrv :: c.cmd :: restTokens (sentRest c (u.rest s))))
      else none := by
  have htext : u.text s = c.cmd ++ u.rest s := by
    unfold Update.text
    rw [hc]
  rw [htext, ajaxRequest_take]
  exact parseLine_words (by decide) c (sentRest_shape c (Update.rest_head hc s))

lemma take_text_ne_nil {u : Update} {c : Command} (hc : u.command = some c) (s : Status) :
    (u.text s).take 255 ≠ [] := by
  unfold Update.text
  rw [hc]
  simp [cmd_ne_nil]

/-- A single argument without blanks arrives as it is. -/
lemma restTokens_sentRest (c : Command) {arg : CString} (hblank : ' ' ∉ arg) (hline : '\n' ∉ arg)
    (hlen : arg.length ≤ 240) : restTokens (sentRest c (' ' :: arg ++ "\n".toList)) = [arg] := by
  have hcmd := length_cmd_le c
  have htake : (' ' :: arg ++ "\n".toList).take (255 - c.cmd.length) =
      ' ' :: arg ++ "\n".toList := by
    refine List.take_of_length_le ?_
    simp only [List.length_append, List.length_cons]
    have hnewline : "\n".toList.length = 1 := by decide
    omega
  have hclean : '\n' ∉ ' ' :: arg := by
    rw [List.mem_cons, not_or]
    exact ⟨by decide, hline⟩
  unfold sentRest
  rw [htake, takeWhile_ne_append hclean]
  have hend : "\n".toList.takeWhile (fun ch => decide (ch ≠ '\n')) = [] := by decide
  rw [hend, List.append_nil, restTokens, List.splitOn_eq_singleton hblank]

end SerialChrono
