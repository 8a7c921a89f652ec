import Kannel.Gwlib.Octstr

/-!
# Telnet commands in the input of a modem

A modem behind a terminal server: each command is an escape and two octets. The scan goes on at the
place of the command it has just deleted, and also of one that it does not know.
-/

namespace Kannel
open List

def telnetEscape : UInt8 := 0xFF

/-- `DO`, the start of a subnegotiation, `WILL` and `WONT`. -/
def telnetKnown (a : UInt8) : Bool := a = 0xFD || a = 0xFA || a = 0xFB || a = 0xFC

/-- What is left in the buffer and what has been written, if `rounds` are enough. -/
def telnetLoop : Nat → Octstr → Nat → Octstr → Option (Octstr × Octstr)
  | 0, _, _, _ => none
  | rounds + 1, ilb, start, answers =>
    if start < ilb.length then
      match octstrSearchChar ilb telnetEscape start with
      | none => some (ilb, answers)
      | some pos =>
        match ilb.drop (pos + 1) with
        | a :: b :: _ =>
          -- only `DO` is answered, with `WONT`
          let answers := answers ++ if a = 0xFD then [telnetEscape, 0xFC, b] else []
          telnetLoop rounds (if telnetKnown a then octstrDelete ilb pos 3 else ilb) pos answers
        | _ => some (ilb, answers)
    else some (ilb, answers)

def at2ScanForTelnetEscapes (rounds : Nat) : Option Octstr → Option (Option Octstr × Octstr)
  | none => some (none, [])
  | some ilb => (telnetLoop rounds ilb 0 []).map fun r => (some r.1, r.2)

def withoutCommands : Octstr → Octstr
  | c :: a :: b :: rest =>
    if c = telnetEscape ∧ telnetKnown a = true then withoutCommands rest
    else c :: withoutCommands (a :: b :: rest)
  | rest => rest

/-- Read from the left, every escape with two octets behind it begins a known command. -/
def OnlyKnown : Octstr → Prop
  | c :: a :: b :: rest =>
    if c = telnetEscape then telnetKnown a = true ∧ OnlyKnown rest else OnlyKnown (a :: b :: rest)
  | _ => True

variable {front back rest answers : Octstr} {a b c : UInt8} {rounds : Nat}

theorem telnetLoop_command :
    telnetLoop (rounds + 1) (front ++ telnetEscape :: a :: b :: rest) front.length answers =
      telnetLoop rounds
        (if telnetKnown a then front ++ rest else front ++ telnetEscape :: a :: b :: rest)
        front.length (answers ++ if a = 0xFD then [telnetEscape, 0xFC, b] else []) := by
  have hsearch : octstrSearchChar (front ++ telnetEscape :: a :: b :: rest) telnetEscape
    front.length = some (front.length + 0) := octstrSearchChar_some drop_left not_mem_nil
  rw [telnetLoop, if_pos (by simp), hsearch]
  simp [octstrDelete]

theorem search_skip (hc : c ≠ telnetEscape) :
    octstrSearchChar (front ++ c :: back) telnetEscape front.length =
      octstrSearchChar (front ++ [c] ++ back) telnetEscape (front ++ [c]).length := by
  rw [octstrSearchChar, octstrSearchChar, drop_left, drop_left, findIdx?_cons, decide_eq_false hc,
    length_append, length_singleton]
  cases findIdx? (· = telnetEscape) back with
  | none => rfl
  | some pos => exact congrArg some (Nat.add_right_comm _ pos 1)

theorem telnetLoop_skip (hc : c ≠ telnetEscape) :
    telnetLoop rounds (front ++ c :: back) front.length answers =
      telnetLoop rounds (front ++ [c] ++ back) (front ++ [c]).length answers := by
  cases rounds with
  | zero => rfl
  | succ rounds =>
    rw [telnetLoop, if_pos (by simp), search_skip hc, telnetLoop]
    split_ifs with hback
    · simp only [append_assoc, singleton_append]
    · have hnil : back = [] := by simpa using hback
      rw [hnil, octstrSearchChar_none drop_left not_mem_nil, append_nil]

theorem telnetLoop_short (h : back.length ≤ 2) :
    telnetLoop (rounds + 1) (front ++ back) front.length answers =
      some (front ++ back, answers) := by
  rw [telnetLoop]
  split
  · split
    · rfl
    · next pos hpos =>
      obtain ⟨found, -, rfl⟩ := Option.map_eq_some_iff.mp hpos
      split
      · next hdrop =>
        have hlen := congrArg length hdrop
        simp only [length_drop, length_append, length_cons] at hlen
        omega
      · rfl
  · rfl

theorem telnetLoop_unknown (ha : telnetKnown a = false) :
    telnetLoop rounds (front ++ telnetEscape :: a :: b :: rest) front.length answers = none := by
  induction rounds generalizing answers with
  | zero => rfl
  | succ rounds ih =>
    rw [telnetLoop_command, ha]
    exact ih

theorem telnetLoop_returns_iff (front back answers : Octstr) :
    (∃ rounds result, telnetLoop rounds (front ++ back) front.length answers = some result ∧
      result.1 = front ++ withoutCommands back) ↔ OnlyKnown back := by
  induction back using OnlyKnown.induct generalizing front answers with
  | case1 a b rest ih =>
    cases ha : telnetKnown a with
    | false => simp [telnetLoop_unknown ha, OnlyKnown, ha]
    | true =>
      simp only [OnlyKnown, withoutCommands, ha, and_self, true_and, if_true]
      rw [← ih front (answers ++ if a = 0xFD then [telnetEscape, 0xFC, b] else [])]
      constructor
      · intro ⟨rounds, h⟩
        cases rounds with
        | zero => grind [telnetLoop]
        | succ rounds => exact ⟨rounds, by simpa only [telnetLoop_command, ha, if_true] using h⟩
      · intro ⟨rounds, h⟩
        exact ⟨rounds + 1, by simpa only [telnetLoop_command, ha, if_true] using h⟩
  | case2 c a b rest hc ih =>
    simp only [OnlyKnown, withoutCommands, hc, false_and, if_false, telnetLoop_skip hc,
      ← ih (front ++ [c]) answers, append_assoc, singleton_append]
  | case3 back h =>
    have hshort : back.length ≤ 2 := by
      match back, h with
      | [], _ | [_], _ | [_, _], _ => simp
      | _ :: _ :: _ :: _, h => exact absurd rfl (h _ _ _ _)
    simp only [OnlyKnown, withoutCommands, iff_true]
    exact ⟨1, _, telnetLoop_short hshort, rfl⟩

/-- **Only known commands.** The scan returns, with the commands taken out of the buffer, exactly if
no escape begins a command it does not know; at such a one it stays for ever. -/
theorem at2ScanForTelnetEscapes_returns_iff (ilb : Octstr) :
    (∃ rounds answers,
      at2ScanForTelnetEscapes rounds (some ilb) = some (some (withoutCommands ilb), answers)) ↔
      OnlyKnown ilb := by
  rw [← telnetLoop_returns_iff [] ilb []]
  simp [at2ScanForTelnetEscapes]

/-- `DONT` with the option echo. -/
theorem at2ScanForTelnetEscapes_dont :
    ¬ ∃ rounds result, at2ScanForTelnetEscapes rounds (some [0xFF, 0xFE, 1]) = some result := by
  intro ⟨rounds, result, h⟩
  have hnone : telnetLoop rounds [0xFF, 0xFE, 1] 0 [] = none :=
    @telnetLoop_unknown [] [] [] 0xFE 1 rounds rfl
  simp [at2ScanForTelnetEscapes, hnone] at h

end Kannel
