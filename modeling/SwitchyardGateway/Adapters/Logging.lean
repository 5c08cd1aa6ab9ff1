/-
# Silencing dependency logs

`DependencyLogSilencer` and `silence_dependency_logs` of `adapters/logging.py`.  Handles
save the level of `logging.disable` when they become active and restore it at their
outermost exit; nothing else changes the level here.

The level from outside is saved by one handle only, the keeper of `Nesting.Scopes`.
All others have saved `CRITICAL` (`Kept`), so the level is `CRITICAL` while there is a
keeper, and the level from outside afterwards.  If a scope is open without a keeper, that
scope is not silenced, or the level is `CRITICAL` from then on (`Stranded`).
-/

import SwitchyardGateway.Nesting.Scopes
import Mathlib.Logic.Function.Basic

namespace SwitchyardGateway
namespace Logging

open Nesting

/-- `logging.CRITICAL`. -/
def critical : ℤ := 50

/-- `DependencyLogSilencer`, by default as `__init__` leaves it. -/
structure DependencyLogSilencer where
  previous : Option ℤ := none
  depth : ℕ := 0

namespace DependencyLogSilencer

/-- `_activate`: the handle and the level afterwards. -/
def activate (silencer : DependencyLogSilencer) (level : ℤ) : DependencyLogSilencer × ℤ :=
  let silencer := if silencer.previous = none then { silencer with previous := some level }
    else silencer
  (silencer, critical)

/-- `__enter__`. -/
def enter (silencer : DependencyLogSilencer) (level : ℤ) : DependencyLogSilencer × ℤ :=
  let (silencer, level) := silencer.activate level
  ({ silencer with depth := silencer.depth + 1 }, level)

/-- `__exit__`. -/
def exit (silencer : DependencyLogSilencer) (level : ℤ) : DependencyLogSilencer × ℤ :=
  if silencer.depth = 0 then (silencer, level)
  else
    let silencer := { silencer with depth := silencer.depth - 1 }
    if silencer.depth ≠ 0 then (silencer, level)
    else
      let previous := silencer.previous
      let silencer := { silencer with previous := none }
      match previous with
      | some previous => (silencer, previous)
      | none => (silencer, level)

end DependencyLogSilencer

/-- `silence_dependency_logs`. -/
def silenceDependencyLogs (level : ℤ) : DependencyLogSilencer × ℤ :=
  let silencer : DependencyLogSilencer := {}
  silencer.activate level

/-- `logging.root.manager.disable`, and the handles in the order they were made. -/
structure Process where
  level : ℤ
  handles : List DependencyLogSilencer

namespace Process

/-- Call a method of a handle. -/
def call (w : Process) (h : ℕ)
    (method : DependencyLogSilencer → ℤ → DependencyLogSilencer × ℤ) : Process :=
  match w.handles[h]? with
  | none => w
  | some silencer =>
    let (silencer, level) := method silencer w.level
    ⟨level, w.handles.set h silencer⟩

def step (w : Process) : Event → Process
  | .make =>
    let (silencer, level) := silenceDependencyLogs w.level
    ⟨level, w.handles ++ [silencer]⟩
  | .enter h => w.call h DependencyLogSilencer.enter
  | .exit h => w.call h DependencyLogSilencer.exit

/-- The level which a handle has saved. -/
def saved (w : Process) (h : ℕ) : Option ℤ := w.handles[h]?.bind (·.previous)

end Process

/-- The process after a history that began at the level `prior`. -/
def after (prior : ℤ) : List Event → Process
  | [] => ⟨prior, []⟩
  | e :: l => (after prior l).step e

/-- The level is `CRITICAL` wherever a scope is open. -/
def Silenced (prior : ℤ) (l : List Event) : Prop :=
  ∀ l', l' <:+ l → scopes l' ≠ [] → (after prior l').level = critical

/-! ### Handles and scopes -/

variable {prior : ℤ} {l : List Event} {e : Event} {h k : ℕ}

namespace DependencyLogSilencer

variable {s : DependencyLogSilencer} {level : ℤ}

theorem activate_eq : s.activate level = (⟨some (s.previous.getD level), s.depth⟩, critical) := by
  obtain ⟨previous, depth⟩ := s
  cases previous <;> rfl

theorem enter_eq :
    s.enter level = (⟨some (s.previous.getD level), s.depth + 1⟩, critical) := by
  rw [enter, activate_eq]

theorem exit_of_zero (hs : s.depth = 0) : s.exit level = (s, level) := if_pos hs

theorem exit_of_inner (hs : 1 < s.depth) :
    s.exit level = (⟨s.previous, s.depth - 1⟩, level) := by
  have hne : s.depth ≠ 0 := by omega
  have hinner : s.depth - 1 ≠ 0 := by omega
  rw [exit, if_neg hne]
  exact if_pos hinner

theorem exit_of_last (hs : s.depth = 1) :
    s.exit level = (⟨none, 0⟩, s.previous.getD level) := by
  obtain ⟨previous, depth⟩ := s
  obtain rfl : depth = 1 := hs
  cases previous <;> rfl

end DependencyLogSilencer

namespace Process

variable {w : Process} {s : DependencyLogSilencer}
  {method : DependencyLogSilencer → ℤ → DependencyLogSilencer × ℤ}

theorem level_call (hs : w.handles[h]? = some s) :
    (w.call h method).level = (method s w.level).2 := by
  rw [call, hs]

theorem length_call : (w.call h method).handles.length = w.handles.length := by
  rw [call]
  split
  · rfl
  · exact List.length_set

theorem handles_call (hs : w.handles[h]? = some s) (k : ℕ) :
    (w.call h method).handles[k]? =
      if k = h then some (method s w.level).1 else w.handles[k]? := by
  have hlt : h < w.handles.length := (List.getElem?_eq_some_iff.1 hs).1
  simp only [call, hs, List.getElem?_set, hlt, if_true, eq_comm]

theorem saved_call (hs : w.handles[h]? = some s) :
    (w.call h method).saved = Function.update w.saved h (method s w.level).1.previous := by
  funext k
  rw [saved, handles_call hs, Function.update_apply]
  split
  · rfl
  · rfl

theorem saved_eq (hs : w.handles[h]? = some s) : w.saved h = s.previous := by
  rw [saved, hs, Option.bind_some]

end Process

/-- The handles know what their scopes are: how many are open, and whether there is
anything to restore. -/
structure Tracks (l : List Event) (w : Process) : Prop where
  made : w.handles.length = made l
  depth : ∀ {h s}, w.handles[h]? = some s → s.depth = (scopes l).count h
  active : ∀ {h s}, w.handles[h]? = some s → (s.previous ≠ none ↔ Active l h)

theorem Tracks.get {w : Process} (ht : Tracks l w) (hh : h < Nesting.made l) :
    ∃ s, w.handles[h]? = some s :=
  ⟨_, List.getElem?_eq_getElem (ht.made.symm ▸ hh)⟩

theorem last_iff : Last l h ↔ (scopes l).count h = 1 := by
  rw [Last, ← List.count_pos_iff, ← List.count_eq_zero, List.count_erase_self]
  omega

/-- What an exit does, by how many scopes of the handle are open. -/
theorem Tracks.exit_cases {w : Process} {s : DependencyLogSilencer} (ht : Tracks l w)
    (hs : w.handles[h]? = some s) :
    (h ∉ scopes l ∧ s.exit w.level = (s, w.level)) ∨
      (h ∈ scopes l ∧ ¬ Last l h ∧ s.exit w.level = (⟨s.previous, s.depth - 1⟩, w.level)) ∨
      (Last l h ∧ s.exit w.level = (⟨none, 0⟩, s.previous.getD w.level)) := by
  have hdepth := ht.depth hs
  rw [last_iff, ← List.count_eq_zero, ← List.count_pos_iff, ← hdepth]
  rcases Nat.lt_trichotomy s.depth 1 with hlt | hone | hgt
  · exact .inl ⟨Nat.lt_one_iff.1 hlt, s.exit_of_zero (Nat.lt_one_iff.1 hlt)⟩
  · exact .inr (.inr ⟨hone, s.exit_of_last hone⟩)
  · exact .inr (.inl ⟨by omega, by omega, s.exit_of_inner hgt⟩)

theorem tracks_make {w : Process} (hl : Bracketed l) (ht : Tracks l w) :
    Tracks (.make :: l) (w.step .make) := by
  have hnew : w.step .make = ⟨critical, w.handles ++ [⟨some w.level, 0⟩]⟩ := rfl
  have hfresh : Nesting.made l ∉ scopes l := fun hh => Nat.lt_irrefl _ (hl.scopes_lt hh)
  rw [hnew]
  have hget : ∀ {k s}, (w.handles ++ [⟨some w.level, 0⟩])[k]? = some s →
      w.handles[k]? = some s ∨ (k = Nesting.made l ∧ s = ⟨some w.level, 0⟩) := by
    intro k s hs
    rcases lt_trichotomy k w.handles.length with hlt | rfl | hgt
    · rw [List.getElem?_append_left hlt] at hs
      exact .inl hs
    · rw [List.getElem?_concat_length] at hs
      exact .inr ⟨ht.made, (Option.some.inj hs).symm⟩
    · rw [List.getElem?_eq_none (by rw [List.length_append]; exact hgt)] at hs
      cases hs
  refine ⟨by simp [Nesting.made, ht.made], fun hs => ?_, fun hs => ?_⟩
  · rcases hget hs with hs | ⟨rfl, rfl⟩
    · exact ht.depth hs
    · exact (List.count_eq_zero.2 hfresh).symm
  · rcases hget hs with hs | ⟨rfl, rfl⟩
    · have hlt : _ < Nesting.made l := ht.made ▸ (List.getElem?_eq_some_iff.1 hs).1
      rw [ht.active hs, Activates.make.active]
      exact (or_iff_right hlt.ne).symm
    · simp [Activates.make.active]

theorem tracks_enter {w : Process} (hlt : h < Nesting.made l) (ht : Tracks l w) :
    Tracks (.enter h :: l) (w.step (.enter h)) := by
  obtain ⟨s, hs⟩ := ht.get hlt
  refine ⟨Process.length_call.trans ht.made, fun {k t} hk => ?_, fun {k t} hk => ?_⟩ <;>
    rw [Process.step, Process.handles_call hs, DependencyLogSilencer.enter_eq] at hk <;>
    split at hk
  · next heq =>
    subst heq
    rw [← Option.some.inj hk, scopes, List.count_cons_self, ← ht.depth hs]
  · next hne => rw [ht.depth hk, scopes, List.count_cons_of_ne (Ne.symm hne)]
  · next heq =>
    subst heq
    simp [← Option.some.inj hk, (Activates.enter _).active]
  · next hne => rw [ht.active hk, (Activates.enter h).active, or_iff_right hne]

theorem tracks_exit {w : Process} (hl : Bracketed (.exit h :: l)) (ht : Tracks l w) :
    Tracks (.exit h :: l) (w.step (.exit h)) := by
  obtain ⟨s, hs⟩ := ht.get hl.1
  have hdepth := ht.depth hs
  have hread : ∀ k, (w.call h DependencyLogSilencer.exit).handles[k]? =
      if k = h then some (s.exit w.level).1 else w.handles[k]? := Process.handles_call hs
  refine ⟨Process.length_call.trans ht.made, fun {k t} hk => ?_, fun {k t} hk => ?_⟩ <;>
    rw [Process.step, hread] at hk <;> split at hk
  · next heq =>
    subst heq
    rw [← Option.some.inj hk, scopes, List.count_erase_self, ← hdepth]
    rcases ht.exit_cases hs with ⟨hmem, heq⟩ | ⟨_, _, heq⟩ | ⟨hlast, heq⟩
    · rw [heq, hdepth, List.count_eq_zero.2 hmem]
    · rw [heq]
    · rw [heq, hdepth, last_iff.1 hlast]
  · next hne => rw [ht.depth hk, scopes, List.count_erase_of_ne hne]
  · next heq =>
    subst heq
    have hactive := ht.active hs
    rw [← Option.some.inj hk]
    rcases ht.exit_cases hs with ⟨hmem, heq⟩ | ⟨_, hnot, heq⟩ | ⟨hlast, heq⟩
    · rwa [heq, active_exit_of_not_last fun hlast => hmem hlast.1]
    · rwa [heq, active_exit_of_not_last hnot]
    · simp [heq, hl.tail.active_exit_last hlast]
  · next hne =>
    rw [ht.active hk]
    by_cases hlast : Last l h
    · rw [hl.tail.active_exit_last hlast, and_iff_right hne]
    · rw [active_exit_of_not_last hlast]

theorem tracks_after (prior : ℤ) (hl : Bracketed l) : Tracks l (after prior l) := by
  induction l with
  | nil => exact ⟨rfl, nofun, nofun⟩
  | cons e l ih =>
    cases e with
    | make => exact tracks_make hl (ih hl)
    | enter h => exact tracks_enter hl.1 (ih hl.2)
    | exit h => exact tracks_exit hl (ih hl.2.2)

/-! ### What is saved and what the level is -/

theorem saved_iff (prior : ℤ) (hl : Bracketed l) : (after prior l).saved h ≠ none ↔ Active l h := by
  have ht := tracks_after prior hl
  by_cases hlt : h < made l
  · obtain ⟨s, hs⟩ := ht.get hlt
    rw [Process.saved_eq hs, ht.active hs]
  · have hnone : (after prior l).saved h = none := by
      rw [Process.saved, List.getElem?_eq_none (by rw [ht.made]; exact Nat.le_of_not_lt hlt)]
      rfl
    exact iff_of_false (fun hne => hne hnone) fun hactive => hlt (hl.active_lt hactive)

/-- A handle that becomes active saves the level, and one that is active keeps what it has
saved. -/
theorem activated (prior : ℤ) (ha : Activates l e h) (hl : Bracketed (e :: l)) :
    (after prior (e :: l)).level = critical ∧ (after prior (e :: l)).saved =
      Function.update (after prior l).saved h
        (some (((after prior l).saved h).getD (after prior l).level)) := by
  cases ha with
  | make =>
    have ht := tracks_after prior hl.tail
    have hnone : (after prior l).saved (made l) = none := by
      by_contra hne
      exact Nat.lt_irrefl _ (hl.tail.active_lt ((saved_iff prior hl.tail).1 hne))
    have hnew : (after prior (.make :: l)).handles =
        (after prior l).handles ++ [⟨some (after prior l).level, 0⟩] := rfl
    refine ⟨rfl, funext fun k => ?_⟩
    rw [hnone, Option.getD_none, Function.update_apply, Process.saved, hnew, Process.saved, ← ht.made]
    split
    · next heq => rw [heq, List.getElem?_concat_length, Option.bind_some]
    · next hne =>
      rcases Nat.lt_or_gt_of_ne hne with hlt | hgt
      · rw [List.getElem?_append_left hlt]
      · rw [List.getElem?_eq_none (by rw [List.length_append]; exact hgt),
          List.getElem?_eq_none hgt.le]
  | enter =>
    obtain ⟨s, hs⟩ := (tracks_after prior hl.2).get hl.1
    rw [after, Process.step, Process.level_call hs, Process.saved_call hs,
      DependencyLogSilencer.enter_eq, Process.saved_eq hs]
    exact ⟨rfl, rfl⟩

theorem exit_of_not_last (prior : ℤ) (hl : Bracketed (.exit h :: l)) (hnot : ¬ Last l h) :
    (after prior (.exit h :: l)).level = (after prior l).level ∧
      (after prior (.exit h :: l)).saved = (after prior l).saved := by
  have ht := tracks_after prior hl.tail
  obtain ⟨s, hs⟩ := ht.get hl.1
  rw [after, Process.step, Process.level_call hs, Process.saved_call hs]
  have hsame : Function.update (after prior l).saved h s.previous = (after prior l).saved := by
    rw [← Process.saved_eq hs, Function.update_eq_self]
  rcases ht.exit_cases hs with ⟨_, heq⟩ | ⟨_, _, heq⟩ | ⟨hlast, _⟩
  · rw [heq]
    exact ⟨rfl, hsame⟩
  · rw [heq]
    exact ⟨rfl, hsame⟩
  · exact absurd hlast hnot

theorem exit_of_last (prior : ℤ) (hl : Bracketed (.exit h :: l)) (hlast : Last l h) :
    (after prior (.exit h :: l)).level = ((after prior l).saved h).getD (after prior l).level ∧
      (after prior (.exit h :: l)).saved = Function.update (after prior l).saved h none := by
  have ht := tracks_after prior hl.tail
  obtain ⟨s, hs⟩ := ht.get hl.1
  rw [after, Process.step, Process.level_call hs, Process.saved_call hs, Process.saved_eq hs]
  rcases ht.exit_cases hs with ⟨hmem, _⟩ | ⟨_, hnot, _⟩ | ⟨_, heq⟩
  · exact absurd hlast.1 hmem
  · exact absurd hlast hnot
  · rw [heq]
    exact ⟨rfl, rfl⟩

/-- The keeper has saved the level from outside, everybody else `CRITICAL`. -/
structure Kept (prior : ℤ) (l : List Event) : Prop where
  level : (after prior l).level = if keeper l = none then prior else critical
  saved : ∀ {h v}, (after prior l).saved h = some v →
    v = if keeper l = some h then prior else critical

/-- Nobody has saved anything but `CRITICAL`. -/
structure Stranded (prior : ℤ) (l : List Event) : Prop where
  level : (after prior l).level = critical
  saved : ∀ {h v}, (after prior l).saved h = some v → v = critical

theorem Stranded.getD (hs : Stranded prior l) :
    ((after prior l).saved h).getD (after prior l).level = critical := by
  cases hv : (after prior l).saved h with
  | none => exact hs.level
  | some v => exact hs.saved hv

theorem Stranded.activate (ha : Activates l e h) (hl : Bracketed (e :: l))
    (hs : Stranded prior l) : Stranded prior (e :: l) := by
  obtain ⟨hlevel, hsaved⟩ := activated prior ha hl
  refine ⟨hlevel, fun {k v} hv => ?_⟩
  rw [hsaved, Function.update_apply] at hv
  split at hv
  · exact (Option.some.inj hv).symm.trans hs.getD
  · exact hs.saved hv

/-- Nothing brings another level back. -/
theorem Stranded.cons (hl : Bracketed (e :: l)) (hs : Stranded prior l) :
    Stranded prior (e :: l) := by
  cases e with
  | make => exact hs.activate .make hl
  | enter h => exact hs.activate (.enter h) hl
  | exit h =>
    by_cases hlast : Last l h
    · obtain ⟨hlevel, hsaved⟩ := exit_of_last prior hl hlast
      refine ⟨hlevel.trans hs.getD, fun {k v} hv => ?_⟩
      rw [hsaved, Function.update_apply] at hv
      split at hv
      · cases hv
      · exact hs.saved hv
    · obtain ⟨hlevel, hsaved⟩ := exit_of_not_last prior hl hlast
      exact ⟨hlevel.trans hs.level, fun hv => hs.saved (by rwa [← hsaved])⟩

/-- Without a keeper nobody has saved the level from outside. -/
theorem Kept.without_keeper {v : ℤ} (hk : Kept prior l) (hg : keeper l = none)
    (hv : (after prior l).saved h = some v) : v = critical := by
  have hcritical := hk.saved hv
  rwa [hg, if_neg (Option.some_ne_none h).symm] at hcritical

theorem Kept.activate (ha : Activates l e h) (hl : Bracketed (e :: l)) (hk : Kept prior l)
    (hcovered : keeper (e :: l) ≠ none) : Kept prior (e :: l) := by
  obtain ⟨hlevel, hsaved⟩ := activated prior ha hl
  refine ⟨by rw [hlevel, if_neg hcovered], fun {k v} hv => ?_⟩
  rw [hsaved, Function.update_apply, hk.level] at hv
  rw [ha.keeper hl.tail] at hcovered ⊢
  cases hg : keeper l with
  | none =>
    -- The handle becomes the keeper, so it has saved nothing yet.
    rw [hg] at hv hcovered
    have hactive : ¬ Active l h := fun hactive => hcovered (by simp [hactive])
    have hnone : (after prior l).saved h = none := by
      by_contra hne
      exact hactive ((saved_iff prior hl.tail).1 hne)
    rw [hnone] at hv
    split at hv
    · next heq => simpa [heq, hactive] using hv.symm
    · next hne => simpa [hactive, Ne.symm hne] using hk.without_keeper hg hv
  | some g =>
    have hnot : ¬ (some g = none ∧ ¬ Active l h) := by simp
    rw [if_neg hnot, ← hg]
    split at hv
    · next heq =>
      subst heq
      cases hu : (after prior l).saved k with
      | none =>
        have hne : g ≠ k := by
          rintro rfl
          exact (saved_iff prior hl.tail).2 (hl.tail.keeper_active hg) hu
        simpa [hu, hg, hne] using hv.symm
      | some u =>
        obtain rfl : u = v := by simpa [hu] using hv
        exact hk.saved hu
    · exact hk.saved hv

theorem Kept.exit (hl : Bracketed (.exit h :: l)) (hk : Kept prior l)
    (hcovered : scopes l ≠ [] → keeper l ≠ none) : Kept prior (.exit h :: l) := by
  by_cases hlast : Last l h
  · obtain ⟨hlevel, hsaved⟩ := exit_of_last prior hl hlast
    obtain ⟨g, hg⟩ := Option.ne_none_iff_exists'.1 (hcovered (List.ne_nil_of_mem hlast.1))
    obtain ⟨u, hu⟩ := Option.ne_none_iff_exists'.1
      ((saved_iff prior hl.tail).2 (.inl hlast.1))
    have hsu := hk.saved hu
    rw [hu, Option.getD_some, hsu, hg] at hlevel
    by_cases hgh : g = h
    · -- The keeper gives the level from outside back.
      subst hgh
      have hkeeper : keeper (.exit g :: l) = none := if_pos ⟨hg, hlast⟩
      refine ⟨by rw [hlevel, hkeeper, if_pos rfl, if_pos rfl], fun {k v} hv => ?_⟩
      rw [hsaved, Function.update_apply] at hv
      split at hv
      · cases hv
      · next hne => simpa [hkeeper, hg, Ne.symm hne] using hk.saved hv
    · have hkeeper : keeper (.exit h :: l) = some g := by simp [keeper, hg, hgh]
      have hne : some g ≠ some h := fun heq => hgh (Option.some.inj heq)
      refine ⟨by rw [hlevel, hkeeper, if_neg hne, if_neg (Option.some_ne_none g)],
        fun {k v} hv => ?_⟩
      rw [hsaved, Function.update_apply] at hv
      split at hv
      · cases hv
      · rw [hkeeper, ← hg]
        exact hk.saved hv
  · obtain ⟨hlevel, hsaved⟩ := exit_of_not_last prior hl hlast
    have hkeeper : keeper (.exit h :: l) = keeper l := if_neg fun hleave => hlast hleave.2
    refine ⟨by rw [hlevel, hk.level, hkeeper], fun {k v} hv => ?_⟩
    rw [hkeeper]
    rw [hsaved] at hv
    exact hk.saved hv

/-- The keeper's outermost exit left a scope open, or a handle that had saved `CRITICAL`
was entered. -/
theorem Kept.stranded (hprior : prior ≠ critical) (hl : Bracketed (e :: l)) (hk : Kept prior l)
    (hcovered : scopes l ≠ [] → keeper l ≠ none) (hnone : keeper (e :: l) = none)
    (hlevel : (after prior (e :: l)).level = critical) : Stranded prior (e :: l) := by
  have hactivated : ∀ {h}, Activates l e h → Stranded prior (e :: l) := by
    intro h ha
    rw [ha.keeper hl.tail] at hnone
    split at hnone
    · cases hnone
    · next hnot =>
      have hactive : Active l h := by_contra fun hactive => hnot ⟨hnone, hactive⟩
      obtain ⟨u, hu⟩ := Option.ne_none_iff_exists'.1 ((saved_iff prior hl.tail).2 hactive)
      refine ⟨hlevel, fun {k v} hv => ?_⟩
      rw [(activated prior ha hl).2, Function.update_apply, hu, Option.getD_some] at hv
      split at hv
      · exact (Option.some.inj hv).symm.trans (hk.without_keeper hnone hu)
      · exact hk.without_keeper hnone hv
  cases e with
  | make => exact hactivated .make
  | enter h => exact hactivated (.enter h)
  | exit h =>
    have hrestored := (hk.exit hl hcovered).level
    rw [hnone, if_pos rfl] at hrestored
    exact absurd (hrestored.symm.trans hlevel) hprior

theorem Kept.cons (hl : Bracketed (e :: l)) (hk : Kept prior l) (hc : Covered (e :: l)) :
    Kept prior (e :: l) := by
  obtain ⟨hcovered, htail⟩ := covered_cons.1 hc
  cases e with
  | make => exact hk.activate .make hl nofun
  | enter h => exact hk.activate (.enter h) hl (hcovered (List.cons_ne_nil _ _))
  | exit h => exact hk.exit hl (htail l List.suffix_rfl)

theorem kept_of_covered (hl : Bracketed l) (hc : Covered l) : Kept prior l := by
  induction l with
  | nil => exact ⟨rfl, nofun⟩
  | cons e l ih => exact (ih hl.tail hc.tail).cons hl hc

theorem stranded_of_critical (hl : Bracketed l) : Stranded critical l := by
  induction l with
  | nil => exact ⟨rfl, nofun⟩
  | cons e l ih => exact (ih hl.tail).cons hl

theorem silenced_cons :
    Silenced prior (e :: l) ↔
      (scopes (e :: l) ≠ [] → (after prior (e :: l)).level = critical) ∧ Silenced prior l :=
  forall_suffix_cons

/-- If all scopes are silenced, there was a keeper for each, or the level from outside is
lost. -/
theorem Silenced.covered_or_stranded (hprior : prior ≠ critical) (hl : Bracketed l)
    (hs : Silenced prior l) : Covered l ∨ Stranded prior l := by
  induction l with
  | nil => exact .inl covered_nil
  | cons e l ih =>
    obtain ⟨hlevel, hs⟩ := silenced_cons.1 hs
    rcases ih hl.tail hs with hc | hstranded
    · by_cases hcovered : scopes (e :: l) ≠ [] → keeper (e :: l) ≠ none
      · exact .inl (covered_cons.2 ⟨hcovered, hc⟩)
      · obtain ⟨hopen, hnone⟩ := Classical.not_imp.1 hcovered
        exact .inr ((kept_of_covered hl.tail hc).stranded hprior hl (hc l List.suffix_rfl)
          (not_not.1 hnone) (hlevel hopen))
    · exact .inr (hstranded.cons hl)

theorem Timely.silenced (hl : Bracketed l) (hend : Settled l) (ht : Timely l) :
    Silenced prior l ∧ (after prior l).level = prior := by
  have hc := ht.covered hl
  refine ⟨fun l' hl' hopen => ?_, ?_⟩
  · rw [(kept_of_covered (hl.suffix hl') (hc.suffix hl')).level, if_neg (hc l' hl' hopen)]
  · rw [(kept_of_covered hl hc).level, hend.keeper hl, if_pos rfl]

/-- **Scopes are silenced and the level restored if and only if first entries are
timely**, or the level was `CRITICAL` all along. -/
theorem silencing_nests_iff (prior : ℤ) (events : List Event) (hl : Bracketed events)
    (hend : Settled events) :
    (Silenced prior events ∧ (after prior events).level = prior) ↔
      prior = critical ∨ Timely events := by
  constructor
  · rintro ⟨hs, hlevel⟩
    refine or_iff_not_imp_left.2 fun hprior => (timely_iff_covered hl hend).2 ?_
    refine (hs.covered_or_stranded hprior hl).resolve_right fun hstranded => ?_
    exact hprior (hlevel.symm.trans hstranded.level)
  · rintro (rfl | ht)
    · refine ⟨fun l' hl' _ => ?_, (stranded_of_critical hl).level⟩
      exact (stranded_of_critical (hl.suffix hl')).level
    · exact Timely.silenced hl hend ht

/-- Two handles made up front: the second is entered and exited and entered again in a
scope of the first, which is entered before any other. -/
theorem silencing_nests_up_front :
    Silenced 30 [.exit 0, .exit 1, .enter 1, .exit 1, .enter 1, .enter 0, .make, .make] ∧
      (after 30 [.exit 0, .exit 1, .enter 1, .exit 1, .enter 1, .enter 0, .make, .make]).level =
        30 :=
  (silencing_nests_iff 30 _ (by decide) (by decide)).2 (.inr (by decide))

/-- Two handles made up front: the second is entered first, and the first within it.  The
level is `CRITICAL` at the end. -/
theorem silencing_does_not_nest :
    ¬ ∀ (prior : ℤ) (events : List Event), Bracketed events → Settled events →
      Silenced prior events ∧ (after prior events).level = prior := by
  intro h
  have hlevel :=
    (h 0 [.exit 1, .exit 0, .enter 0, .enter 1, .make, .make] (by decide) (by decide)).2
  exact absurd hlevel (by decide)

end Logging
end SwitchyardGateway
