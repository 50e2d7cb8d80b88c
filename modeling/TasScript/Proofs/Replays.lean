import Mathlib.Data.List.Induction
import TasScript.Proofs.DueChecks

/-! The replays of a whole run. Failed checks are numbered across restarts, and as many of them ask
for a replay as the settings allow, the first ones; no other call touches the budget. -/

namespace TasScript

namespace ReplayBudget

/-- A budget of which `n` replays were asked for. -/
def after (limit n : Nat) : ReplayBudget := ⟨limit, min limit n⟩

theorem consume_after (limit n : Nat) :
    (after limit n).consume = (after limit (n + 1), decide (n + 1 ≤ limit)) := by
  unfold consume
  by_cases hlt : n + 1 ≤ limit
  · have hleft : (after limit n).exhausted = false := by
      apply decide_eq_false
      change ¬ limit ≤ min limit n
      omega
    have hused : min limit n + 1 = min limit (n + 1) := by omega
    rw [hleft, decide_eq_true hlt]
    exact congrArg (fun used => ((⟨limit, used⟩ : ReplayBudget), true)) hused
  · have hspent : (after limit n).exhausted = true := by
      apply decide_eq_true
      change limit ≤ min limit n
      omega
    have hused : min limit n = min limit (n + 1) := by omega
    rw [hspent, decide_eq_false hlt]
    exact congrArg (fun used => ((⟨limit, used⟩ : ReplayBudget), false)) hused

end ReplayBudget

theorem Coordinator.settle_after (limit n : Nat) (met : Bool) :
    settle (.after limit n) met =
      (.after limit (n + (!met).toNat),
        if met then .pass
        else if n + 1 ≤ limit then .replayRequested
        else .replayExhausted) := by
  cases met with
  | true => rfl
  | false =>
    by_cases hlt : n + 1 ≤ limit <;> simp [settle, ReplayBudget.consume_after, hlt]

namespace Exchange

def isRestart (x : Exchange) : Bool :=
  match x.1 with
  | .restart => true
  | _ => false

def asksReplay : Exchange → Bool
  | (.evaluate _ _, .ok (.checked (some r))) => decide (r.outcome = .replayRequested)
  | _ => false

theorem asksReplay_of_isRestart {x : Exchange} (h : x.isRestart = true) :
    x.asksReplay = false := by
  obtain ⟨c, reply⟩ := x
  cases c <;> first | rfl | simp [isRestart] at h

end Exchange

/-- Every restart follows a request for a replay, with no other restart in between. -/
def RestartsOnRequest (h : List Exchange) : Prop :=
  ∀ past x future, h = past ++ x :: future → x.isRestart = true →
    ∃ before y between, past = before ++ y :: between ∧ y.asksReplay = true ∧
      ∀ z ∈ between, z.isRestart = false

/-- Whether a comparison with the player is made and finds the target missed. -/
def CheckTarget.isMissed (t : CheckTarget) (player : Player) : Bool :=
  match t.compareWith player with
  | .ok k => !k.isMet
  | .error _ => false

namespace Session

variable {s : Session} {tick : Int} {limit n : Nat}

/-- Whether a call evaluates a due check whose target is missed. -/
def fails (s : Session) : Call → Bool
  | .evaluate tick player =>
    (Pending.at? (tick + 1) s.checks.pending).any fun t => t.isMissed player
  | _ => false

def failures (s : Session) : List Call → Nat
  | [] => 0
  | c :: cs => (s.fails c).toNat + (s.perform c).session.failures cs

theorem budget_invoke (s : Session) (tokens : List Token) (tick : Int) :
    (s.invoke tokens tick).session.budget = s.budget := by
  rcases s.invoke_steps tokens tick with ⟨q, m, hacc, hsession, -⟩ | ⟨hsame, -⟩
  · rw [hsession]
    rcases s.apply_cases tick hacc.succeeded with
      ⟨d, -, hs, -⟩ | ⟨b, -, -, hs, -⟩ | ⟨b, t, -, -, -, hs, -⟩ | ⟨b, d, -, -, -, hs, -⟩
    · rw [hs]
    · rw [hs]
      rfl
    · rw [hs]
      rfl
    · rw [hs]
      rfl
  · rw [hsame]

theorem perform_evaluate_none (h : Pending.at? (tick + 1) s.checks.pending = none)
    (player : Player) :
    (s.perform (.evaluate tick player)).result = .ok (.checked none) ∧
      (s.perform (.evaluate tick player)).session.budget = s.budget := by
  unfold perform evaluate
  dsimp only
  rw [Coordinator.evaluate_of_none h]
  exact ⟨rfl, rfl⟩

theorem perform_evaluate_error {t : CheckTarget} {player : Player} {d : Defect}
    (h : Pending.at? (tick + 1) s.checks.pending = some t) (hd : t.compareWith player = .error d) :
    (s.perform (.evaluate tick player)).result = .error d ∧
      (s.perform (.evaluate tick player)).session.budget = s.budget := by
  unfold perform evaluate
  dsimp only
  rw [Coordinator.evaluate_of_error h hd]
  exact ⟨rfl, rfl⟩

theorem perform_evaluate_ok {t : CheckTarget} {player : Player} {k : Comparison}
    (h : Pending.at? (tick + 1) s.checks.pending = some t) (hk : t.compareWith player = .ok k) :
    (s.perform (.evaluate tick player)).result =
        .ok (.checked (some (Coordinator.judge s.budget t k).2)) ∧
      (s.perform (.evaluate tick player)).session.budget = (Coordinator.judge s.budget t k).1 := by
  unfold perform evaluate
  dsimp only
  rw [Coordinator.evaluate_of_ok h hk]
  exact ⟨rfl, rfl⟩

theorem judge_after (limit n : Nat) (t : CheckTarget) (k : Comparison) :
    (Coordinator.judge (.after limit n) t k).1 = .after limit (n + (!k.isMet).toNat) ∧
      (Coordinator.judge (.after limit n) t k).2.replaysUsed =
        (Coordinator.judge (.after limit n) t k).1.used ∧
      (Coordinator.judge (.after limit n) t k).2.outcome =
        if k.isMet then .pass
        else if n + 1 ≤ limit then .replayRequested
        else .replayExhausted := by
  unfold Coordinator.judge
  rw [Coordinator.settle_after]
  exact ⟨rfl, rfl, rfl⟩

theorem perform_budget (hb : s.budget = .after limit n) (c : Call) :
    (s.perform c).session.budget = .after limit (n + (s.fails c).toNat) := by
  cases c with
  | invoke tokens tick => exact (budget_invoke s tokens tick).trans hb
  | validate tokens =>
    rw [perform_validate_session]
    exact hb
  | advance => exact hb
  | evaluate tick player =>
    cases hdue : Pending.at? (tick + 1) s.checks.pending with
    | none =>
      rw [(perform_evaluate_none hdue player).2]
      simpa [fails, hdue] using hb
    | some t =>
      cases hk : t.compareWith player with
      | error d =>
        rw [(perform_evaluate_error hdue hk).2]
        simpa [fails, hdue, CheckTarget.isMissed, hk] using hb
      | ok k =>
        rw [(perform_evaluate_ok hdue hk).2, hb, (judge_after limit n t k).1]
        simp [fails, hdue, CheckTarget.isMissed, hk]
  | restart => exact hb

theorem asksReplay_perform (hb : s.budget = .after limit n) (c : Call) :
    Exchange.asksReplay (c, (s.perform c).result) =
      (s.fails c && decide (n + 1 ≤ limit)) := by
  cases c with
  | invoke tokens tick =>
    simp only [perform, fails, Bool.false_and]
    cases (s.invoke tokens tick).result <;> rfl
  | validate tokens =>
    simp only [perform, fails, Bool.false_and]
    cases s.validate tokens <;> rfl
  | advance => rfl
  | evaluate tick player =>
    cases hdue : Pending.at? (tick + 1) s.checks.pending with
    | none =>
      rw [(perform_evaluate_none hdue player).1]
      simp [fails, hdue, Exchange.asksReplay]
    | some t =>
      cases hk : t.compareWith player with
      | error d =>
        rw [(perform_evaluate_error hdue hk).1]
        simp [fails, hdue, CheckTarget.isMissed, hk, Exchange.asksReplay]
      | ok k =>
        rw [(perform_evaluate_ok hdue hk).1, hb]
        simp only [Exchange.asksReplay, (judge_after limit n t k).2.2, fails, hdue,
          Option.any_some, CheckTarget.isMissed, hk]
        cases k.isMet with
        | true => simp
        | false => by_cases hlt : n + 1 ≤ limit <;> simp [hlt]
  | restart => rfl

theorem run_budget (hb : s.budget = .after limit n) (cs : List Call) :
    (s.run cs).budget = .after limit (n + s.failures cs) := by
  induction cs generalizing s n with
  | nil => exact hb
  | cons c cs ih =>
    rw [run, ih (perform_budget hb c), failures, Nat.add_assoc]

theorem countP_asksReplay (hb : s.budget = .after limit n) (cs : List Call) :
    min limit n + (s.history cs).countP Exchange.asksReplay =
      min limit (n + s.failures cs) := by
  induction cs generalizing s n with
  | nil => rfl
  | cons c cs ih =>
    have hask := asksReplay_perform hb c
    have hrest := ih (perform_budget hb c)
    have hcons : s.history (c :: cs) =
        (c, (s.perform c).result) :: (s.perform c).session.history cs := rfl
    rw [hcons, List.countP_cons, hask, failures]
    cases hf : s.fails c with
    | false =>
      simp only [hf, Bool.toNat_false, Nat.add_zero, Nat.zero_add, Bool.false_and] at hrest ⊢
      simpa using hrest
    | true =>
      simp only [hf, Bool.toNat_true, Bool.true_and, decide_eq_true_eq] at hrest ⊢
      by_cases hlt : n + 1 ≤ limit
      · rw [if_pos hlt]
        omega
      · rw [if_neg hlt]
        omega

end Session

namespace RestartsOnRequest

theorem of_concat {h : List Exchange} {x : Exchange} (hr : RestartsOnRequest (h ++ [x])) :
    RestartsOnRequest h := by
  intro past y future he hy
  exact hr past y (future ++ [x]) (by simp [he]) hy

/-- A request that was not answered yet leaves one restart more. -/
theorem countP_restarts {h : List Exchange} (hr : RestartsOnRequest h) :
    h.countP Exchange.isRestart ≤ h.countP Exchange.asksReplay ∧
      ∀ before y between, h = before ++ y :: between → y.asksReplay = true →
        (∀ z ∈ between, z.isRestart = false) →
          h.countP Exchange.isRestart + 1 ≤ h.countP Exchange.asksReplay := by
  induction h using List.reverseRecOn with
  | nil => simp
  | append_singleton h x ih =>
    obtain ⟨hle, hopen⟩ := ih hr.of_concat
    rw [List.countP_append, List.countP_append, List.countP_singleton, List.countP_singleton]
    by_cases hx : x.isRestart = true
    · have hask : x.asksReplay = false := Exchange.asksReplay_of_isRestart hx
      obtain ⟨before, y, between, he, hy, hquiet⟩ := hr h x [] rfl hx
      have hone := hopen before y between he hy hquiet
      rw [if_pos hx, hask]
      refine ⟨by simpa using hone, ?_⟩
      intro before' y' between' he' hy' hquiet'
      rcases List.concat_eq_append_cons he' with ⟨-, rfl, -⟩ | ⟨init, rfl, -⟩
      · simp [hask] at hy'
      · have hz := hquiet' x (by simp)
        simp [hx] at hz
    · rw [if_neg hx, Nat.add_zero]
      by_cases hask : x.asksReplay = true
      · rw [if_pos hask]
        exact ⟨by omega, fun _ _ _ _ _ _ => by omega⟩
      · rw [if_neg hask, Nat.add_zero]
        refine ⟨hle, ?_⟩
        intro before y between he hy hquiet
        rcases List.concat_eq_append_cons he with ⟨-, rfl, -⟩ | ⟨init, rfl, hinit⟩
        · exact absurd hy hask
        · exact hopen before y init hinit hy fun z hz => hquiet z (by simp [hz])

end RestartsOnRequest

namespace Session

/-- The replays of a whole run: what the next check of it gives, what spends a replay, and how often
a host restarts that restarts on request only. -/
theorem replays_of_run (config : Config) (calls : List Call) :
    let first := start .builtIn config
    let s := first.run calls
    let n := first.failures calls
    s.budget.limit = config.maxReplays ∧ s.budget.used = min config.maxReplays n ∧
      (∀ c, s.fails c = false → (s.perform c).session.budget = s.budget) ∧
      (∀ tick player, Pending.at? (tick + 1) s.checks.pending = none →
        (s.perform (.evaluate tick player)).result = .ok (.checked none)) ∧
      (∀ tick player t, Pending.at? (tick + 1) s.checks.pending = some t →
        ∃ k r, t.compareWith player = .ok k ∧
          (s.perform (.evaluate tick player)).result = .ok (.checked (some r)) ∧
          r.target = t ∧
          r.replaysUsed = (s.perform (.evaluate tick player)).session.budget.used ∧
          r.outcome = if k.isMet then .pass
            else if n + 1 ≤ config.maxReplays then .replayRequested
            else .replayExhausted) ∧
      (RestartsOnRequest (first.history calls) →
        (first.history calls).countP Exchange.isRestart ≤ config.maxReplays) := by
  intro first s n
  have hfirst : first.budget = .after config.maxReplays 0 := by
    simp [first, start, budget, ReplayBudget.after]
  have hs : s.budget = .after config.maxReplays n := by
    simpa using run_budget hfirst calls
  refine ⟨by rw [hs]; rfl, by rw [hs]; rfl, ?_, ?_, ?_, ?_⟩
  · intro c hc
    rw [perform_budget hs c, hc, hs]
    rfl
  · intro tick player hdue
    exact (perform_evaluate_none hdue player).1
  · intro tick player t hdue
    obtain ⟨k, hk⟩ := comparable_of_run hdue player
    obtain ⟨hres, hbudget⟩ := perform_evaluate_ok hdue hk
    obtain ⟨-, hused, hout⟩ := judge_after config.maxReplays n t k
    rw [hs] at hres hbudget
    exact ⟨k, _, hk, hres, rfl, by rw [hbudget, hused], hout⟩
  · intro hr
    have hrestarts := hr.countP_restarts.1
    have hrequests := countP_asksReplay hfirst calls
    simp only [Nat.min_zero, Nat.zero_add] at hrequests
    calc (first.history calls).countP Exchange.isRestart
        ≤ (first.history calls).countP Exchange.asksReplay := hrestarts
      _ = min config.maxReplays (first.failures calls) := hrequests
      _ ≤ config.maxReplays := Nat.min_le_left _ _

end Session

end TasScript
