import HouseStyle.Proofs.Python.Tokens
import HouseStyle.Python.Recognizer

/-!
# Windows

A recognizer reads some tokens out of a row. What it builds from them lies between the end of the token
before the first one and the start of the token behind the last one.

* `Window`: a part of a row of tokens, with `first` and `last`, the offsets around it.
* `Window.Covers`: the offsets between the two.
* `Window.covers_start`, `Window.covers_stop`, `Window.covers_next`, `Window.covers_stopBefore`: the offsets that
  recognizers can see.
* `Window.part`: a window inside of another one.
-/

namespace HouseStyle.Python

open Recognizer

/-- The offset at which the token before a place ends. -/
def stopBefore (tokens : Array Token) : Nat → Nat
  | 0 => 0
  | i + 1 => (tokens[i]?.map Token.stop).getD 0

theorem lastStop_eq (tokens : Array Token) (i : Nat) :
    lastStop tokens i = .found (stopBefore tokens i) i (Nat.le_refl i) := by
  unfold lastStop
  cases i with
  | zero => split <;> rfl
  | succ i => cases h : tokens[i]? <;> simp [stopBefore, h]

/-- A part of a row of tokens that stand in a text, from the place of its first token to the place behind
its last one. -/
structure Window where
  chars : Array Char
  tokens : Array Token
  start : Nat
  stop : Nat
  stand : ∀ t ∈ tokens, t.Stands chars
  inRow : InRow 0 chars.size tokens.toList
  stop_le : stop ≤ tokens.size

namespace Window

variable {W : Window} {i j k : Nat} {t : Token}

/-- The offset at which the token at a place begins; behind the last token it is the end of the text. -/
def startAt (W : Window) (i : Nat) : Nat :=
  (W.tokens[i]?.map Token.start).getD W.chars.size

/-- The offset at which the token before the window ends. -/
def first (W : Window) : Nat :=
  stopBefore W.tokens W.start

/-- The offset at which the token behind the window begins. -/
def last (W : Window) : Nat :=
  W.startAt W.stop

/-- The offsets around a window and between. -/
structure Covers (W : Window) (offset : Nat) : Prop where
  first_le : W.first ≤ offset
  le_last : offset ≤ W.last

/-- A token of a window. -/
structure Reads (W : Window) (k : Nat) (t : Token) : Prop where
  start_le : W.start ≤ k
  lt_stop : k < W.stop
  token : W.tokens[k]? = some t

theorem stands_of_token (h : W.tokens[k]? = some t) : t.Stands W.chars :=
  W.stand t (Array.mem_of_getElem? h)

/-- A token begins where the tokens before it have ended. -/
theorem stopBefore_le (hik : i ≤ k) (h : W.tokens[k]? = some t) : stopBefore W.tokens i ≤ t.start := by
  cases i with
  | zero => exact Nat.zero_le _
  | succ i =>
    have hk := (Array.getElem?_eq_some_iff.1 h).1
    have hi : i < W.tokens.size := by omega
    rw [stopBefore, Array.getElem?_eq_getElem hi]
    rw [← Array.getElem?_toList] at h
    obtain ⟨hk', rfl⟩ := List.getElem?_eq_some_iff.1 h
    exact List.pairwise_iff_getElem.1 W.inRow.ordered i k (by rwa [Array.length_toList]) hk' hik

/-- A token ends before the tokens behind it begin. -/
theorem stop_le_startAt (hkj : k < j) (h : W.tokens[k]? = some t) : t.stop ≤ W.startAt j := by
  unfold startAt
  cases hj : W.tokens[j]? with
  | none => exact (stands_of_token h).inside
  | some s =>
    have := stopBefore_le (Nat.succ_le_of_lt hkj) hj
    rwa [stopBefore, h] at this

/-! ### Offsets that are covered -/

theorem covers_start (h : W.Reads k t) : W.Covers t.start :=
  ⟨stopBefore_le h.start_le h.token,
    Nat.le_trans (stands_of_token h.token).ordered (stop_le_startAt h.lt_stop h.token)⟩

theorem covers_stop (h : W.Reads k t) : W.Covers t.stop :=
  ⟨Nat.le_trans (stopBefore_le h.start_le h.token) (stands_of_token h.token).ordered,
    stop_le_startAt h.lt_stop h.token⟩

/-- The token that is next may be the one behind the window. -/
theorem covers_next (hstart : W.start ≤ k) (hstop : k ≤ W.stop) (h : W.tokens[k]? = some t) : W.Covers t.start := by
  rcases Nat.lt_or_eq_of_le hstop with hlt | rfl
  · exact covers_start ⟨hstart, hlt, h⟩
  · refine ⟨stopBefore_le hstart h, Nat.le_of_eq ?_⟩
    rw [last, startAt, h]
    rfl

/-- The token that was read last may be the one before the window. -/
theorem covers_stopBefore (hstart : W.start ≤ k) (hstop : k ≤ W.stop) : W.Covers (stopBefore W.tokens k) := by
  rcases Nat.lt_or_eq_of_le hstart with hlt | rfl
  · obtain ⟨k, rfl⟩ := Nat.exists_eq_add_one_of_ne_zero (Nat.ne_of_gt (Nat.zero_lt_of_lt hlt))
    have hk : k < W.tokens.size := Nat.lt_of_lt_of_le hstop W.stop_le
    have hread : W.Reads k W.tokens[k] := ⟨Nat.le_of_lt_succ hlt, hstop, Array.getElem?_eq_getElem hk⟩
    rw [stopBefore, hread.token]
    exact covers_stop hread
  · refine ⟨Nat.le_refl _, ?_⟩
    cases hk : W.start with
    | zero => exact Nat.zero_le _
    | succ k =>
      rw [hk] at hstop
      have hlt : k < W.tokens.size := Nat.lt_of_lt_of_le hstop W.stop_le
      rw [stopBefore, Array.getElem?_eq_getElem hlt]
      exact stop_le_startAt hstop (Array.getElem?_eq_getElem hlt)

theorem Covers.le_size {offset : Nat} (h : W.Covers offset) : offset ≤ W.chars.size := by
  refine Nat.le_trans h.le_last ?_
  unfold last startAt
  cases hnext : W.tokens[W.stop]? with
  | none => exact Nat.le_refl _
  | some t => exact Nat.le_trans (stands_of_token hnext).ordered (stands_of_token hnext).inside

/-! ### Parts of a window -/

/-- The part of a window between two places. -/
def part (W : Window) (i j : Nat) (h : j ≤ W.stop) : Window :=
  { W with start := i, stop := j, stop_le := Nat.le_trans h W.stop_le }

/-- A token of a window begins before the last one ends. -/
theorem start_le_stopBefore (h : W.Reads k t) : t.start ≤ stopBefore W.tokens W.stop := by
  have hcovers : (W.part (k + 1) W.stop (Nat.le_refl _)).Covers (stopBefore W.tokens W.stop) :=
    covers_stopBefore h.lt_stop (Nat.le_refl _)
  have hle : stopBefore W.tokens (k + 1) ≤ stopBefore W.tokens W.stop := hcovers.first_le
  rw [stopBefore, h.token] at hle
  exact Nat.le_trans (stands_of_token h.token).ordered hle

/-- A token of a window begins where the first one does, or behind it. -/
theorem startAt_le (h : W.Reads k t) : W.startAt W.start ≤ t.start := by
  have hlt : W.start < W.tokens.size := by
    have := (Array.getElem?_eq_some_iff.1 h.token).1
    have := h.start_le
    omega
  have hfirst : W.tokens[W.start]? = some W.tokens[W.start] := Array.getElem?_eq_getElem hlt
  have hcovers : (W.part W.start k (Nat.le_of_lt h.lt_stop)).Covers W.tokens[W.start].start :=
    covers_next (Nat.le_refl _) h.start_le hfirst
  have hle : W.tokens[W.start].start ≤ W.startAt k := hcovers.le_last
  rw [startAt, h.token] at hle
  rwa [startAt, hfirst]

end Window

end HouseStyle.Python
