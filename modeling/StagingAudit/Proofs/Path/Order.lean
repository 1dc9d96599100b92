import Mathlib.Data.List.Lex
import StagingAudit.Path

/-!
# The order of paths

Paths are ordered by their components, from the first one on: the root comes before a leading `.`,
both before `..`, and all of them before names, which go by code point. Said without a comparison
this is `Component.Before`, and for paths the lexicographic order of their components
(`Path.Before`). The comparison of the program says the same (`order_eq_gt_iff`), and **the order is
strict and total on components**: of two paths one comes first, or they have the same components
(`before_or_same`). As texts they may differ then, and a path that comes first as a text need not
come first.
-/

namespace StagingAudit

/-- A component comes before another one. -/
inductive Component.Before : Component → Component → Prop where
  /-- the root comes first -/
  | root {k : Component} (h : k ≠ .root) : Before .root k
  /-- then a leading `.` -/
  | here {k : Component} (hroot : k ≠ .root) (hhere : k ≠ .here) : Before .here k
  /-- then `..` -/
  | parent (n : List Char) : Before .parent (.name n)
  /-- then names, by code point -/
  | name {a b : List Char} (h : a < b) : Before (.name a) (.name b)

/-- A path comes before another one: at the first component in which they differ, or by having
fewer components. -/
def Path.Before (p q : Path) : Prop := List.Lex Component.Before p.components q.components

/-- What a comparison says about two things, in an order without it. -/
def IsVerdict {α : Type} (before : α → α → Prop) (a b : α) : Ordering → Prop
  | .lt => before a b
  | .eq => a = b
  | .gt => before b a

/-! ## Components -/

namespace Component

theorem isVerdict_compareComponent (a b : Component) :
    IsVerdict Before a b (Path.compareComponent a b) := by
  cases a with
  | name a =>
    cases b with
    | name b =>
      rw [Path.compareComponent, compareOfLessAndEq]
      split
      · next hlt => exact .name hlt
      · next hle =>
        split
        · next heq => exact congrArg Component.name heq
        · next hne =>
          refine .name (Decidable.by_contra fun hge => hne ?_)
          exact List.le_antisymm (List.not_lt.1 hge) (List.not_lt.1 hle)
    | parent => exact .parent a
    | root => exact .root nofun
    | here => exact .here nofun nofun
  | parent =>
    cases b with
    | name b => exact .parent b
    | parent => rfl
    | root => exact .root nofun
    | here => exact .here nofun nofun
  | here =>
    cases b with
    | here => rfl
    | root => exact .root nofun
    | _ => exact .here nofun nofun
  | root =>
    cases b with
    | root => rfl
    | _ => exact .root nofun

/-- Nothing comes before the root. -/
theorem not_before_root (k : Component) : ¬k.Before .root := by
  intro h
  cases h <;> contradiction

theorem Before.asymm {a b : Component} (h : a.Before b) : ¬b.Before a := by
  intro h'
  cases h with
  | root hroot => exact not_before_root _ h'
  | here hroot hhere => cases h' <;> contradiction
  | parent n => cases h'
  | name h =>
    cases h' with
    | name h' => exact List.lt_irrefl _ (List.lt_trans h h')

theorem Before.trans {a b c : Component} (h : a.Before b) (h' : b.Before c) : a.Before c := by
  have hroot : c ≠ .root := by
    rintro rfl
    exact not_before_root _ h'
  cases h with
  | root _ => exact .root hroot
  | here hb hhere =>
    refine .here hroot ?_
    rintro rfl
    cases h' <;> contradiction
  | parent n =>
    cases h' with
    | name _ => exact .parent _
  | name h =>
    cases h' with
    | name h' => exact .name (List.lt_trans h h')

instance : IsStrictTotalOrder Component Before where
  trichotomous a b h h' := by
    have hverdict := isVerdict_compareComponent a b
    generalize Path.compareComponent a b = verdict at hverdict
    cases verdict with
    | lt => exact absurd hverdict h
    | eq => exact hverdict
    | gt => exact absurd hverdict h'
  irrefl _ h := h.asymm h
  trans _ _ _ := Before.trans

end Component

/-! ## Paths -/

namespace Path

variable {p q r : Path}

theorem isVerdict_compareComponents (as bs : List Component) :
    IsVerdict (List.Lex Component.Before) as bs (compareComponents as bs) := by
  induction as generalizing bs with
  | nil =>
    cases bs with
    | nil => rfl
    | cons b bs => exact .nil
  | cons a as ih =>
    cases bs with
    | nil => exact .nil
    | cons b bs =>
      have hhead := Component.isVerdict_compareComponent a b
      have htail := ih bs
      rw [compareComponents]
      -- the first components decide, unless they are the same
      generalize compareComponent a b = first at hhead ⊢
      generalize compareComponents as bs = later at htail ⊢
      cases first with
      | lt => exact .rel hhead
      | gt => exact .rel hhead
      | eq =>
        obtain rfl : a = b := hhead
        cases later with
        | lt => exact .cons htail
        | gt => exact .cons htail
        | eq => exact congrArg (a :: ·) htail

theorem Before.asymm (h : p.Before q) : ¬q.Before p :=
  asymm_of (List.Lex Component.Before) h

/-- What comes before a path comes before all that do not come before the path. -/
theorem Before.of_not_before (h : p.Before q) (hr : ¬r.Before q) : p.Before r :=
  (@IsOrderConnected.conn _ (List.Lex Component.Before) _ _ r.components _ h).resolve_right hr

/-- **The order of paths is total on components.** -/
theorem before_or_same (p q : Path) :
    p.Before q ∨ p.components = q.components ∨ q.Before p :=
  trichotomous_of (List.Lex Component.Before) p.components q.components

theorem not_before_of_same (h : p.components = q.components) : ¬p.Before q := by
  rw [Before, h]
  exact irrefl_of (List.Lex Component.Before) q.components

/-- The program compares paths by this order. -/
theorem order_eq_gt_iff : order p q = .gt ↔ q.Before p := by
  have hverdict := isVerdict_compareComponents p.components q.components
  rw [order]
  generalize compareComponents p.components q.components = verdict at hverdict ⊢
  cases verdict with
  | lt => exact iff_of_false nofun (Before.asymm hverdict)
  | eq => exact iff_of_false nofun (not_before_of_same (Eq.symm hverdict))
  | gt => exact iff_of_true rfl hverdict

end Path

end StagingAudit
