import Mathlib
import TapeMachine.Tape
/-!
# Histories of tapes

A history says how a tape came about: blank or with a text on it, and then written to any number of
times. What is read on such a tape is told by the history alone (`History.symbol`), and
`canonical_of_histories`: the stored cells are those that do not read as the blank, so that two tapes
are equal exactly if they have the same blank and read alike everywhere, whatever was written,
erased and written again on the way.
-/

namespace TapeMachine

/-! ## Many writes -/

namespace Tape

/-- The tape after writes, the first of them first. -/
def writeAll (t : Tape) (writes : List (Position × Symbol)) : Tape :=
  writes.foldl (fun t (p, s) => t.write p s) t

/-- What was written last at a position, if anything was. -/
def lastWritten? (writes : List (Position × Symbol)) (p : Position) : Option Symbol :=
  (writes.filter (·.1 = p)).getLast?.map (·.2)

variable (t : Tape) (writes : List (Position × Symbol)) (p q : Position) (s : Symbol)

theorem lastWritten?_append_singleton :
    lastWritten? (writes ++ [(q, s)]) p = if q = p then some s else lastWritten? writes p := by
  unfold lastWritten?
  by_cases h : q = p <;> simp [h]

/-- Where the writes agree, it makes no difference which of them is the last. -/
theorem lastWritten?_eq_of_mem_iff {writes : List (Position × Symbol)} {p : Position}
    {o : Option Symbol} (h : ∀ s, (p, s) ∈ writes ↔ o = some s) : lastWritten? writes p = o := by
  unfold lastWritten?
  cases hw : (writes.filter (·.1 = p)).getLast? with
  | none =>
    rw [List.getLast?_eq_none_iff] at hw
    cases o with
    | none => rfl
    | some s =>
      rw [List.filter_eq_nil_iff] at hw
      exact absurd (decide_eq_true rfl) (hw (p, s) ((h s).2 rfl))
  | some w =>
    obtain ⟨hmem, hp⟩ := List.mem_filter.1 (List.mem_of_getLast? hw)
    cases of_decide_eq_true hp
    exact ((h w.2).1 hmem).symm

theorem writeAll_append_singleton :
    t.writeAll (writes ++ [(q, s)]) = (t.writeAll writes).write q s := by
  simp [writeAll]

@[simp] theorem blank_writeAll : (t.writeAll writes).blank = t.blank := by
  -- from the end, here and below, since it is the last write that counts
  induction writes using List.reverseRecOn with
  | nil => rfl
  | append_singleton writes w ih => rw [writeAll_append_singleton, blank_write, ih]

/-- The last write counts, and where there was none the tape is as before. -/
theorem read_writeAll : (t.writeAll writes).read p = (lastWritten? writes p).getD (t.read p) := by
  induction writes using List.reverseRecOn with
  | nil => rfl
  | append_singleton writes w ih =>
    rw [writeAll_append_singleton, lastWritten?_append_singleton, read_write, ih]
    by_cases h : w.1 = p
    · simp [h]
    · simp [h, Ne.symm h]

/-! ## Tapes that hold a text -/

theorem writeFrom_cons (first : Nat) (c : Symbol) (text : List Symbol) :
    t.writeFrom first (c :: text) =
      (if first < 2 ^ 63 then t.write (Int64.ofNat first) c else t).writeFrom (first + 1) text :=
  rfl

@[simp] theorem blank_writeFrom (first : Nat) (text : List Symbol) :
    (t.writeFrom first text).blank = t.blank := by
  induction text generalizing t first with
  | nil => rfl
  | cons c text ih =>
    rw [writeFrom_cons, ih]
    split <;> simp

/-- The character of a text that starts at `first` which comes to stand at a position. -/
def charAt? (text : List Symbol) (first : Nat) (p : Position) : Option Symbol :=
  if first ≤ p.toInt then text[(p.toInt - first).toNat]? else none

theorem charAt?_cons (c : Symbol) (text : List Symbol) (first : Nat) :
    charAt? (c :: text) first p =
      if p.toInt = first then some c else charAt? text (first + 1) p := by
  unfold charAt?
  rcases lt_trichotomy p.toInt first with h | h | h
  · -- before the text
    rw [if_neg (by omega), if_neg (by omega), if_neg (by omega)]
  · -- on its first character
    rw [if_pos (by omega), if_pos h, h]
    simp
  · have : (p.toInt - first).toNat = (p.toInt - (first + 1 : Nat)).toNat + 1 := by omega
    rw [if_pos (by omega), if_neg (by omega), if_pos (by omega), this, List.getElem?_cons_succ]

theorem read_writeFrom (first : Nat) (text : List Symbol) :
    (t.writeFrom first text).read p = (charAt? text first p).getD (t.read p) := by
  induction text generalizing t first with
  | nil =>
    rw [charAt?, List.getElem?_nil, ite_self]
    rfl
  | cons c text ih =>
    rw [writeFrom_cons, ih, charAt?_cons]
    by_cases hf : first < 2 ^ 63
    · have hp : p = Int64.ofNat first ↔ p.toInt = first := by
        rw [← Int64.toInt_inj, Int64.toInt_ofNat_of_lt hf]
      rw [if_pos hf, read_write]
      by_cases h : p.toInt = first
      · have hrest : charAt? text (first + 1) p = none := by rw [charAt?, if_neg (by omega)]
        rw [if_pos h, if_pos (hp.2 h), hrest]
        rfl
      · rw [if_neg h, if_neg (mt hp.1 h)]
    · -- the characters beyond the last position have no cell
      have : p.toInt < 2 ^ 63 := p.toInt_lt
      rw [if_neg hf, if_neg (by omega)]

@[simp] theorem blank_ofString (text : String) (b : Symbol) : (ofString text b).blank = b := by
  simp [ofString]

theorem read_ofString (text : String) (b : Symbol) :
    (ofString text b).read p = (charAt? text.toList 0 p).getD b := by
  rw [ofString, read_writeFrom, read_empty]

/-! ## What is stored -/

theorem isSet_iff : t.isSet p ↔ t.read p ≠ t.blank := by
  rw [isSet, Std.ExtTreeMap.contains_eq_isSome_getElem?, getElem?_cells]
  split <;> simp_all

theorem getElem?_cells_eq_some_iff : t.cells[p]? = some s ↔ t.read p = s ∧ s ≠ t.blank := by
  rw [getElem?_cells]
  by_cases h : t.read p = t.blank
  · rw [if_pos h, h]
    simp [eq_comm]
  · rw [if_neg h, Option.some.injEq]
    exact ⟨fun hs => ⟨hs, hs ▸ h⟩, And.left⟩

end Tape

/-! ## Histories -/

/-- How a tape begins. -/
inductive Origin where
  | blank
  | text (input : String)
  deriving DecidableEq, Repr

namespace Origin

/-- The tape that is begun with. -/
def tape (blank : Symbol) : Origin → Tape
  | .blank => .empty blank
  | .text input => .ofString input blank

/-- The character of the text at a position, if it has one there. -/
def symbol? (p : Position) : Origin → Option Symbol
  | .blank => none
  | .text input => if 0 ≤ p.toInt then input.toList[p.toInt.toNat]? else none

end Origin

/-- How a tape came about: how it began and what was then written, the first write first. -/
structure History where
  blank : Symbol
  origin : Origin
  writes : List (Position × Symbol)
  deriving DecidableEq, Repr

namespace History

variable (h : History)

/-- The tape that came about. -/
def tape : Tape := (h.origin.tape h.blank).writeAll h.writes

/-- The symbol at a position by the history: the one written there last, else that of the text, else
the blank. -/
def symbol (p : Position) : Symbol :=
  ((Tape.lastWritten? h.writes p).or (h.origin.symbol? p)).getD h.blank

@[simp] theorem blank_tape : h.tape.blank = h.blank := by
  cases ho : h.origin <;> simp [tape, Origin.tape, ho]

theorem read_origin (b : Symbol) (p : Position) (o : Origin) :
    (o.tape b).read p = (o.symbol? p).getD b := by
  cases o with
  | blank => exact Tape.read_empty b p
  | text input => simp [Origin.tape, Origin.symbol?, Tape.read_ofString, Tape.charAt?]

theorem read_tape (p : Position) : h.tape.read p = h.symbol p := by
  rw [tape, Tape.read_writeAll, read_origin, symbol]
  cases Tape.lastWritten? h.writes p <;> rfl

/-- The tape of a history stores what the history says and nothing else. -/
structure IsFaithful (h : History) : Prop where
  blank : h.tape.blank = h.blank
  read : ∀ p, h.tape.read p = h.symbol p
  cells : ∀ p s, h.tape.cells[p]? = some s ↔ h.symbol p = s ∧ s ≠ h.blank
  /-- No stored cell holds the blank. -/
  not_blank : ∀ p s, (p, s) ∈ h.tape.toList → s ≠ h.tape.blank
  isSet : ∀ p, h.tape.isSet p ↔ h.tape.read p ≠ h.tape.blank

theorem isFaithful : IsFaithful h where
  blank := h.blank_tape
  read := h.read_tape
  cells p s := by rw [Tape.getElem?_cells_eq_some_iff, read_tape, blank_tape]
  not_blank p s hs := by
    rw [Tape.toList, Std.ExtTreeMap.mem_toList_iff_getElem?_eq_some,
      Tape.getElem?_cells_eq_some_iff] at hs
    exact hs.2
  isSet p := Tape.isSet_iff h.tape p

/-- Tapes are canonical over all histories: equal tapes are those that cannot be told apart by
reading, and each stores what its history says. -/
theorem canonical_of_histories (h k : History) :
    (h.tape = k.tape ↔ h.tape.blank = k.tape.blank ∧ ∀ p, h.tape.read p = k.tape.read p) ∧
      h.IsFaithful := by
  refine ⟨?_, h.isFaithful⟩
  constructor
  · intro heq
    rw [heq]
    exact ⟨rfl, fun _ => rfl⟩
  · rintro ⟨hb, hr⟩
    exact Tape.ext_read hb hr

/-- What was written and erased leaves no trace. -/
example : History.tape ⟨'_', .text "a_b", [(7, 'c'), (2, '_'), (7, '_'), (0, 'd'), (0, 'a')]⟩ =
    History.tape ⟨'_', .blank, [(0, 'a')]⟩ := by
  decide

end History

end TapeMachine
