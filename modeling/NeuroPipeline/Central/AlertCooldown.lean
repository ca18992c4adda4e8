-- SUMMARY: Runs of the alert manager with posts in flight and rules replaced: alerts of one type keep their distance.
import NeuroPipeline.Central.Alerting
import NeuroPipeline.Lib.Rounding
import NeuroPipeline.Lib.TransitionSystem

/-!
# Cooldown over runs

`check_and_fire` runs to its post without giving up control: it looks the rule up, reads
the clock and notes the time. While posts are under way, other calls and `update_rules`
run. The clock is a finite number and does not go back.
-/

open HasValue (value)
open CFloat (const)

/-- How a post ends: `OSError` is caught, any other exception leaves `check_and_fire`. -/
inductive PostOutcome where
  | ok
  | failed
  | raised
  deriving DecidableEq

structure AlertLoop where
  manager : AlertManager
  /-- the last reading -/
  clock : Binary64
  /-- alerts whose post is under way -/
  posting : List FiredAlert := []

inductive AlertCall where
  | checkAndFire (alert : Alert) (now : Binary64)
  | posted (i : Nat) (outcome : PostOutcome)
  | updateRules (rules : List AlertRule) (routes : Option (List AlertRoute))

/-- A firing, with the cooldown of the rule that is in force. -/
structure Firing where
  eventType : String
  now : Binary64
  cooldown : Binary64
  deriving DecidableEq

namespace AlertLoop

/-- The call up to its post. -/
def check (s : AlertLoop) (alert : Alert) (now : Binary64) : AlertLoop :=
  let (manager, fired) := s.manager.checkAndFire alert now
  -- the time is noted before the post, so that whoever runs meanwhile finds it
  ⟨manager, now, s.posting ++ (fired.filter (·.postedTo.isSome)).toList⟩

def updateRules (s : AlertLoop) (rules : List AlertRule) (routes : Option (List AlertRoute)) :
    AlertLoop :=
  match routes with
  | none => { s with manager := { s.manager with rules := AlertManager.rulesOf rules } }
  | some routes => { s with manager := s.manager.updateRules rules routes }

/-- What a step fires. -/
def firing (s : AlertLoop) : AlertCall → Option Firing
  | .checkAndFire alert now =>
    if (s.manager.checkAndFire alert now).2.isSome then
      (s.manager.rules.lookup alert.name).map fun rule => ⟨alert.name, now, rule.cooldownSeconds⟩
    else none
  | _ => none

end AlertLoop

def cooldownSystem : TransitionSystem AlertLoop AlertCall where
  init s := s.manager.lastFired = ∅ ∧ s.posting = []
  step s
    | .checkAndFire alert now =>
      if s.clock ≤ now ∧ (value now).isSome then some (s.check alert now) else none
    | .posted i _ =>
      if i < s.posting.length then some { s with posting := s.posting.eraseIdx i } else none
    | .updateRules rules routes => some (s.updateRules rules routes)

namespace AlertLoop

/-- All firings of a run, in their order. -/
def firings (t : List (AlertLoop × AlertCall)) : List Firing :=
  t.filterMap fun p => p.1.firing p.2

/-- The time between is not less than the cooldown: it is at least that, unless the cooldown
is no number. -/
def Apart (last now cooldown : Binary64) : Prop :=
  ¬now - last < cooldown ∧ (CFloat.IsNumber cooldown → cooldown ≤ now - last)

/-- Firings of one type are apart by the cooldown that is in force at the later one. -/
def KeepsCooldown (fs : List Firing) : Prop :=
  fs.Pairwise fun f g => f.eventType = g.eventType → Apart f.now g.now g.cooldown

/-! ## One check -/

variable {s s' : AlertLoop} {t : List (AlertLoop × AlertCall)} {alert : Alert} {now : Binary64}

/-- A check fires nothing and leaves the manager as it is, or it notes the time. -/
theorem check_cases (s : AlertLoop) (alert : Alert) (now : Binary64) :
    ((s.check alert now).manager = s.manager ∧ s.firing (.checkAndFire alert now) = none) ∨
      ∃ rule, s.manager.coolingDown rule alert.name now = false ∧
        (s.check alert now).manager.lastFired = Dict.set s.manager.lastFired alert.name now ∧
        s.firing (.checkAndFire alert now) = some ⟨alert.name, now, rule.cooldownSeconds⟩ := by
  rcases s.manager.checkAndFire_cases alert now with hnone | ⟨rule, hrule, hcool, hfires⟩
  · refine .inl ⟨?_, ?_⟩
    · rw [check, hnone]
    · rw [firing, hnone]
      rfl
  · refine .inr ⟨rule, hcool, ?_, ?_⟩
    · rw [check, hfires]
    · rw [firing, hfires, hrule]
      rfl

theorem lastFired_updateRules (s : AlertLoop) (rules : List AlertRule)
    (routes : Option (List AlertRoute)) :
    (s.updateRules rules routes).manager.lastFired = s.manager.lastFired := by
  cases routes <;> rfl

theorem clock_updateRules (s : AlertLoop) (rules : List AlertRule)
    (routes : Option (List AlertRoute)) : (s.updateRules rules routes).clock = s.clock := by
  cases routes <;> rfl

/-! ## The invariant -/

/-- Whatever has fired has left a time in the table that is no earlier. -/
structure Noted (fs : List Firing) (s : AlertLoop) : Prop where
  finite : ∀ f ∈ fs, ∃ q, value f.now = some q
  covered : ∀ f ∈ fs, ∃ last, s.manager.lastFired.lookup f.eventType = some last ∧ f.now ≤ last
  held : ∀ eventType last, s.manager.lastFired.lookup eventType = some last →
    (∃ q, value last = some q) ∧ last ≤ s.clock
  apart : KeepsCooldown fs

theorem Noted.congr {fs : List Firing} (h : Noted fs s)
    (htable : s'.manager.lastFired = s.manager.lastFired) (hclock : s'.clock = s.clock) :
    Noted fs s' := by
  refine ⟨h.finite, ?_, ?_, h.apart⟩
  · rw [htable]
    exact h.covered
  · rw [htable, hclock]
    exact h.held

/-- A later time is apart from all that have been noted, if it is from the last. -/
theorem Noted.apart_of_coolingDown {fs : List Firing} (h : Noted fs s) {f : Firing} (hf : f ∈ fs)
    {rule : AlertRule} {q : ℚ} (hq : value now = some q) (hclock : s.clock ≤ now)
    (hcool : s.manager.coolingDown rule f.eventType now = false) :
    Apart f.now now rule.cooldownSeconds := by
  obtain ⟨last, hlast, hle⟩ := h.covered f hf
  obtain ⟨⟨b, hb⟩, hheld⟩ := h.held _ _ hlast
  obtain ⟨a, ha⟩ := h.finite f hf
  -- the last firing is no earlier than `f`, and rounding keeps the order
  have hback : now - last ≤ now - f.now :=
    BinaryFloat.sub_le_sub_of_le ha hb hq hle (LawfulCFloat.le_trans hheld hclock)
  have hnot : ¬now - last < rule.cooldownSeconds := by
    rw [AlertManager.coolingDown, hlast] at hcool
    exact of_decide_eq_false hcool
  have hfar : ¬now - f.now < rule.cooldownSeconds := fun hlt =>
    hnot (LawfulCFloat.lt_of_le_of_lt hback hlt)
  refine ⟨hfar, ?_⟩
  intro hnumber
  exact LawfulCFloat.le_of_not_lt (LawfulCFloat.isNumber_of_le hback).2 hnumber hfar

theorem isNumber_of_value {q : ℚ} (h : value now = some q) : CFloat.IsNumber now :=
  (BinaryFloat.le_iff_of_value h h).mpr (le_refl q)

theorem Noted.check {fs : List Firing} (h : Noted fs s) (alert : Alert) {q : ℚ}
    (hq : value now = some q) (hclock : s.clock ≤ now) :
    Noted (fs ++ (s.firing (.checkAndFire alert now)).toList) (s.check alert now) := by
  have hnow := isNumber_of_value hq
  rcases s.check_cases alert now with ⟨hsame, hnone⟩ | ⟨rule, hcool, htable, hfires⟩
  · rw [hnone, Option.toList_none, List.append_nil]
    refine ⟨h.finite, ?_, ?_, h.apart⟩
    · rw [hsame]
      exact h.covered
    · rw [hsame]
      intro eventType last hlast
      exact (h.held eventType last hlast).imp_right fun hle => LawfulCFloat.le_trans hle hclock
  · rw [hfires, Option.toList_some]
    refine ⟨?_, ?_, ?_, ?_⟩
    · intro f hf
      rcases List.mem_append.mp hf with hf | hf
      · exact h.finite f hf
      · rw [List.mem_singleton.mp hf]
        exact ⟨q, hq⟩
    · intro f hf
      rw [htable, Dict.lookup_set]
      -- a firing of this type is now covered by the new time
      rcases List.mem_append.mp hf with hf | hf
      · obtain ⟨last, hlast, hle⟩ := h.covered f hf
        split
        next =>
            have hheld := (h.held _ _ hlast).2
            exact ⟨now, rfl, LawfulCFloat.le_trans hle (LawfulCFloat.le_trans hheld hclock)⟩
        next => exact ⟨last, hlast, hle⟩
      · rw [List.mem_singleton.mp hf, if_pos rfl]
        exact ⟨now, rfl, hnow⟩
    · intro eventType last hlast
      rw [htable, Dict.lookup_set] at hlast
      split at hlast
      next =>
          obtain rfl := Option.some_inj.mp hlast
          exact ⟨⟨q, hq⟩, hnow⟩
      next => exact (h.held eventType last hlast).imp_right fun hle => LawfulCFloat.le_trans hle hclock
    · refine List.pairwise_append.mpr ⟨h.apart, List.pairwise_singleton _ _, ?_⟩
      intro f hf g hg htype
      rw [List.mem_singleton.mp hg] at htype ⊢
      exact h.apart_of_coolingDown hf hq hclock (htype ▸ hcool)

theorem Noted.step {fs : List Firing} {l : AlertCall} (h : Noted fs s)
    (hs : cooldownSystem.step s l = some s') : Noted (fs ++ (s.firing l).toList) s' := by
  cases l with
  | checkAndFire alert now =>
      obtain ⟨⟨hclock, hfinite⟩, hs⟩ := Option.ite_none_right_eq_some.mp hs
      obtain ⟨q, hq⟩ := Option.isSome_iff_exists.mp hfinite
      obtain rfl := Option.some_inj.mp hs
      exact h.check alert hq hclock
  -- however the post ends, the time that was noted stays
  | posted i outcome =>
      obtain ⟨-, hs⟩ := Option.ite_none_right_eq_some.mp hs
      obtain rfl := Option.some_inj.mp hs
      have hnone : s.firing (.posted i outcome) = none := rfl
      rw [hnone, Option.toList_none, List.append_nil]
      exact h.congr rfl rfl
  | updateRules rules routes =>
      obtain rfl := Option.some_inj.mp hs
      have hnone : s.firing (.updateRules rules routes) = none := rfl
      rw [hnone, Option.toList_none, List.append_nil]
      exact h.congr (s.lastFired_updateRules rules routes) (s.clock_updateRules rules routes)

end AlertLoop

/-! ## Runs -/

open AlertLoop

/-- Whatever calls run side by side, rules are replaced and posts fail, the alerts of one type
keep the cooldown. -/
theorem cooldownSystem.keepsCooldown {s₀ s : AlertLoop} {t : List (AlertLoop × AlertCall)}
    (h₀ : cooldownSystem.init s₀) (hrun : cooldownSystem.Run s₀ t s) : KeepsCooldown (firings t) := by
  have hnoted : Noted (firings t) s := by
    refine hrun.invariant_history (I := fun t s => Noted (firings t) s) ?_ ?_
    · intro t s l s' h hs
      have hsnoc : firings (t ++ [(s, l)]) = firings t ++ (s.firing l).toList := by
        cases hfiring : s.firing l <;> simp [firings, hfiring]
      rw [hsnoc]
      exact h.step hs
    · refine ⟨by simp [firings], by simp [firings], ?_, List.Pairwise.nil⟩
      rw [h₀.1]
      intro eventType last hlast
      cases hlast
  exact hnoted.apart

/-- Two calls, rules with a shorter cooldown while the first post is under way, and a third
call once that has failed. -/
def alertActs : List AlertCall :=
  [.checkAndFire ⟨"edge_disconnect", []⟩ (const 100), .checkAndFire ⟨"edge_disconnect", []⟩ (const 160),
    .updateRules [{ name := "edge_disconnect", cooldownSeconds := const 60 }] none,
    .posted 0 .raised, .checkAndFire ⟨"edge_disconnect", []⟩ (const 170)]

def alertStart : AlertLoop where
  manager := .new [{ name := "edge_disconnect" }] "http://hooks/alerts" []
  clock := const 0

theorem cooldownSystem.keepsCooldown_alertActs :
    ∃ t s, cooldownSystem.Run alertStart t s ∧ (firings t).length = 2 ∧ KeepsCooldown (firings t) := by
  have hexec : (cooldownSystem.execTrace alertStart alertActs).map
      (fun r => (firings r.1).length) = some 2 := by decide +kernel
  obtain ⟨t, s, hrun, -, hlength⟩ := TransitionSystem.exists_run_of_execTrace hexec
  exact ⟨t, s, hrun, hlength, cooldownSystem.keepsCooldown ⟨rfl, rfl⟩ hrun⟩
