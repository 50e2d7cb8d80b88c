import Mathlib.Data.List.Induction
import TasScript.Check.Request
import TasScript.Grammar.Form
import TasScript.Proofs.Comparing
import TasScript.Proofs.Since

/-! The checks that wait for their tick, told by what was asked of the coordinator. A target waits
from the request that schedules it until another takes its place or its tick is evaluated. -/

namespace TasScript

namespace Pending

variable {p : Pending} {t u : CheckTarget} {tick : Int}

def Rising (p : Pending) : Prop := p.Pairwise fun t u => t.tick < u.tick

theorem Rising.mem_put (hp : p.Rising) : u ∈ put t p ↔ u = t ∨ u.tick ≠ t.tick ∧ u ∈ p := by
  induction p with
  | nil => simp [put]
  | cons v p ih =>
    obtain ⟨hv, hp⟩ := List.pairwise_cons.mp hp
    simp only [put]
    split
    · rename_i hlt
      have hne : ∀ w ∈ v :: p, w.tick ≠ t.tick := by
        intro w hw
        rcases List.mem_cons.mp hw with rfl | hw
        · omega
        · have := hv w hw
          omega
      rw [List.mem_cons]
      exact or_congr_right ⟨fun hu => ⟨hne u hu, hu⟩, fun hu => hu.2⟩
    · split
      · rename_i heq
        have hne : ∀ w ∈ p, w.tick ≠ t.tick := by
          intro w hw
          have := hv w hw
          omega
        rw [List.mem_cons, List.mem_cons]
        refine or_congr_right ⟨fun hu => ⟨hne u hu, .inr hu⟩, ?_⟩
        rintro ⟨hu, rfl | hu'⟩
        · exact absurd heq.symm hu
        · exact hu'
      · rename_i hne
        rw [List.mem_cons, ih hp, List.mem_cons, and_or_left, or_left_comm]
        refine or_congr_right (or_congr_left ⟨fun hu => ⟨?_, hu⟩, fun hu => hu.2⟩)
        rw [hu]
        exact Ne.symm hne

theorem Rising.put (hp : p.Rising) : (put t p).Rising := by
  induction p with
  | nil => exact List.pairwise_singleton _ _
  | cons v p ih =>
    obtain ⟨hv, hrest⟩ := List.pairwise_cons.mp hp
    simp only [Pending.put]
    split
    · rename_i hlt
      refine List.pairwise_cons.mpr ⟨fun w hw => ?_, hp⟩
      rcases List.mem_cons.mp hw with rfl | hw
      · exact hlt
      · have := hv w hw
        omega
    · split
      · rename_i heq
        exact List.pairwise_cons.mpr ⟨fun w hw => heq ▸ hv w hw, hrest⟩
      · refine List.pairwise_cons.mpr ⟨fun w hw => ?_, ih hrest⟩
        rcases (Rising.mem_put hrest).mp hw with rfl | ⟨-, hw⟩
        · omega
        · exact hv w hw

theorem Rising.remove (hp : p.Rising) (tick : Int) : (p.remove tick).Rising :=
  List.Pairwise.filter _ hp

theorem mem_remove : u ∈ p.remove tick ↔ u.tick ≠ tick ∧ u ∈ p := by
  simp [remove, and_comm]

theorem at?_eq_none : p.at? tick = none ↔ ∀ u ∈ p, u.tick ≠ tick := by
  simp [at?]

theorem Rising.at?_eq_some (hp : p.Rising) : p.at? tick = some t ↔ t.tick = tick ∧ t ∈ p := by
  induction p with
  | nil => simp [at?]
  | cons v p ih =>
    obtain ⟨hv, hp⟩ := List.pairwise_cons.mp hp
    by_cases h : v.tick = tick
    · have hfirst : at? tick (v :: p) = some v := by simp [at?, h]
      rw [hfirst, List.mem_cons]
      constructor
      · intro ht
        obtain rfl := Option.some.inj ht
        exact ⟨h, .inl rfl⟩
      · rintro ⟨ht, rfl | hmem⟩
        · rfl
        · have := hv t hmem
          omega
    · have hskip : at? tick (v :: p) = at? tick p := by simp [at?, h]
      rw [hskip, ih hp, List.mem_cons]
      refine and_congr_right fun ht => ⟨.inr, ?_⟩
      rintro (rfl | hmem)
      · exact absurd ht h
      · exact hmem

end Pending

theorem CheckTarget.tick_of_ofMatch {m : Match} {tick : Int} {config : Config} {t : CheckTarget}
    (h : ofMatch m tick config = .ok t) : t.tick = tick := by
  obtain ⟨position, -, h⟩ := Except.bind_eq_ok.mp h
  obtain ⟨angles, -, h⟩ := Except.bind_eq_ok.mp h
  obtain rfl := Except.ok.inj h
  rfl

namespace Coordinator

variable {config : Config} {c : Coordinator} {m : Match} {tick : Int} {t : CheckTarget}
  {k : Request} {ks : List Request}

namespace Request

/-- A check of the tick of `t` that was accepted and asks for `t`. -/
def Asks (config : Config) (t : CheckTarget) (k : Request) : Prop :=
  ∃ m, k = .schedule m t.tick ∧ m.succeeded = true ∧ m.tool = checkTool ∧
    CheckTarget.ofMatch m t.tick config = .ok t

def Schedules (config : Config) (tick : Int) (k : Request) : Prop :=
  ∃ t : CheckTarget, t.tick = tick ∧ k.Asks config t

/-- Checks are evaluated on the tick before their own. -/
def Evaluates (tick : Int) (k : Request) : Prop := ∃ player, k = .evaluate (tick - 1) player

end Request

/-- `t` was scheduled, and its tick was neither scheduled anew nor evaluated since. -/
def Waits (config : Config) (t : CheckTarget) (ks : List Request) : Prop :=
  Since (Request.Asks config t) (fun k => k.Evaluates t.tick ∨ k.Schedules config t.tick) ks

section

variable (c : Coordinator) (tick : Int) (player : Player)

theorem evaluate_pending : (c.evaluate tick player).1.pending = c.pending.remove (tick + 1) := by
  rcases c.evaluate_cases tick player with ⟨hdue, h⟩ | ⟨t, d, -, -, h⟩ | ⟨t, k, -, -, h⟩
  · have hother := Pending.at?_eq_none.mp hdue
    rw [h]
    exact (List.filter_eq_self.mpr fun u hu => by simpa using hother u hu).symm
  · rw [h]
  · rw [h]

theorem evaluate_config : (c.evaluate tick player).1.config = c.config := by
  rcases c.evaluate_cases tick player with ⟨-, h⟩ | ⟨t, d, -, -, h⟩ | ⟨t, k, -, -, h⟩ <;> rw [h]

theorem evaluate_eq_none :
    (c.evaluate tick player).2.1 = .ok none ↔ c.pending.at? (tick + 1) = none := by
  rcases c.evaluate_cases tick player with ⟨hdue, h⟩ | ⟨t, d, hdue, -, h⟩ | ⟨t, k, hdue, -, h⟩ <;>
    simp [h, hdue]

theorem evaluate_eq_some {t : CheckTarget} :
    (∃ r, (c.evaluate tick player).2.1 = .ok (some r) ∧ r.target = t) ↔
      c.pending.at? (tick + 1) = some t ∧ t.Comparable player := by
  rw [CheckTarget.comparable_iff]
  rcases c.evaluate_cases tick player with ⟨hdue, h⟩ | ⟨u, d, hdue, hd, h⟩ | ⟨u, k, hdue, hk, h⟩
  · simp [h, hdue]
  · refine iff_of_false (by simp [h]) ?_
    rintro ⟨ht, k, hk⟩
    obtain rfl := Option.some.inj (hdue.symm.trans ht)
    simp [hd] at hk
  · rw [h, hdue]
    constructor
    · rintro ⟨r, hr, rfl⟩
      obtain rfl := Option.some.inj (Except.ok.inj hr)
      exact ⟨rfl, k, hk⟩
    · rintro ⟨ht, -⟩
      exact ⟨_, rfl, Option.some.inj ht⟩

theorem exists_evaluate_eq_error : (∃ d, (c.evaluate tick player).2.1 = .error d) ↔
    ∃ t, c.pending.at? (tick + 1) = some t ∧ ¬ t.Comparable player := by
  simp only [CheckTarget.comparable_iff, ← Except.exists_eq_error_iff]
  rcases c.evaluate_cases tick player with ⟨hdue, h⟩ | ⟨t, d, hdue, hd, h⟩ | ⟨t, k, hdue, hk, h⟩
  · simp [h, hdue]
  · exact iff_of_true ⟨d, by rw [h]⟩ ⟨t, hdue, d, hd⟩
  · simp [h, hdue, hk]

/-- An evaluation that fails has taken the target out and done nothing else. -/
theorem evaluate_of_eq_error {d : Defect} (hd : (c.evaluate tick player).2.1 = .error d) :
    c.evaluate tick player =
      ({ c with pending := c.pending.remove (tick + 1) }, .error d, []) := by
  rcases c.evaluate_cases tick player with ⟨-, h⟩ | ⟨t, e, -, -, h⟩ | ⟨t, k, -, -, h⟩
  · simp [h] at hd
  · rw [h] at hd ⊢
    obtain rfl := Except.error.inj hd
    rfl
  · simp [h] at hd

end

theorem asks_schedule : (Request.schedule m tick).Asks config t ↔
    t.tick = tick ∧ m.succeeded = true ∧ m.tool = checkTool ∧
      CheckTarget.ofMatch m tick config = .ok t := by
  constructor
  · rintro ⟨m', he, hm⟩
    obtain ⟨rfl, rfl⟩ := Request.schedule.inj he
    exact ⟨rfl, hm⟩
  · rintro ⟨rfl, hm⟩
    exact ⟨m, rfl, hm⟩

theorem schedule_check (c : Coordinator) (tick : Int) (hok : m.succeeded = true)
    (htool : m.tool = checkTool) :
    c.schedule m tick = (CheckTarget.ofMatch m tick c.config).map fun t =>
      ({ c with pending := c.pending.put t }, t, [scheduledRecord t]) := by
  have hcheck : (m.succeeded && m.tool == checkTool) = true := by simp [hok, htool]
  unfold schedule
  rw [if_pos hcheck]
  cases CheckTarget.ofMatch m tick c.config <;> rfl

/-- A request to schedule is a check with a target, which is put in its place, or refused. -/
theorem schedule_cases (c : Coordinator) (m : Match) (tick : Int) :
    (∃ t, (Request.schedule m tick).Asks c.config t ∧
        c.schedule m tick = .ok ({ c with pending := c.pending.put t }, t, [scheduledRecord t])) ∨
      (∀ t, ¬ (Request.schedule m tick).Asks c.config t) ∧ ∃ d, c.schedule m tick = .error d := by
  by_cases hm : m.succeeded = true ∧ m.tool = checkTool
  · obtain ⟨hok, htool⟩ := hm
    rw [c.schedule_check tick hok htool]
    cases ht : CheckTarget.ofMatch m tick c.config with
    | ok t =>
      have htick := CheckTarget.tick_of_ofMatch ht
      exact .inl ⟨t, asks_schedule.mpr ⟨htick, hok, htool, ht⟩, rfl⟩
    | error d =>
      refine .inr ⟨fun t hask => ?_, d, rfl⟩
      simp [(asks_schedule.mp hask).2.2.2] at ht
  · refine .inr ⟨fun t hask => hm ?_, .notACheck m.tool, ?_⟩
    · obtain ⟨-, hok, htool, -⟩ := asks_schedule.mp hask
      exact ⟨hok, htool⟩
    · unfold schedule
      rw [if_neg (by simpa using hm)]

theorem asks_iff_eq (h : k.Asks config t) {u : CheckTarget} : k.Asks config u ↔ u = t := by
  constructor
  · intro hu
    obtain ⟨m, rfl, hm⟩ := h
    obtain ⟨htick, -, -, htarget⟩ := asks_schedule.mp hu
    exact Except.ok.inj (htarget.symm.trans hm.2.2)
  · rintro rfl
    exact h

theorem schedules_iff_tick (h : k.Asks config t) {tick : Int} :
    k.Schedules config tick ↔ t.tick = tick := by
  constructor
  · rintro ⟨u, hu, hask⟩
    obtain rfl := (asks_iff_eq h).mp hask
    exact hu
  · exact fun ht => ⟨t, ht, h⟩

theorem config_after (c : Coordinator) (k : Request) : (c.after k).config = c.config := by
  cases k with
  | schedule m tick =>
    simp only [after]
    rcases schedule_cases c m tick with ⟨t, -, hs⟩ | ⟨-, d, hs⟩ <;> rw [hs]
  | evaluate tick player => exact evaluate_config c tick player

theorem rising_after (hc : c.pending.Rising) (k : Request) : (c.after k).pending.Rising := by
  cases k with
  | schedule m tick =>
    simp only [after]
    rcases schedule_cases c m tick with ⟨t, -, hs⟩ | ⟨-, d, hs⟩
    · rw [hs]
      exact hc.put
    · rw [hs]
      exact hc
  | evaluate tick player =>
    simp only [after, evaluate_pending]
    exact hc.remove _

/-- What one request does to the targets that wait. -/
theorem mem_after (hc : c.pending.Rising) (k : Request) :
    t ∈ (c.after k).pending ↔ k.Asks c.config t ∨
      ¬ (k.Evaluates t.tick ∨ k.Schedules c.config t.tick) ∧ t ∈ c.pending := by
  cases k with
  | schedule m tick =>
    have hquiet : ¬ (Request.schedule m tick).Evaluates t.tick := by simp [Request.Evaluates]
    simp only [after, hquiet, false_or]
    rcases schedule_cases c m tick with ⟨u, hask, hs⟩ | ⟨hnone, d, hs⟩
    · rw [hs, hc.mem_put, asks_iff_eq hask, schedules_iff_tick hask, ne_comm]
    · have hsame : ¬ (Request.schedule m tick).Schedules c.config t.tick :=
        fun ⟨u, _, hu⟩ => hnone u hu
      simp [hs, hnone t, hsame]
  | evaluate tick player =>
    have hask : ∀ u, ¬ (Request.evaluate tick player).Asks c.config u := by
      simp [Request.Asks]
    have hsame : ¬ (Request.evaluate tick player).Schedules c.config t.tick :=
      fun ⟨u, _, hu⟩ => hask u hu
    have htick : (Request.evaluate tick player).Evaluates t.tick ↔ t.tick = tick + 1 := by
      simp only [Request.Evaluates, Request.evaluate.injEq, exists_and_left, exists_eq', and_true]
      omega
    simp only [after, evaluate_pending, Pending.mem_remove, hask t, hsame, htick, false_or,
      or_false]

theorem run_concat (c : Coordinator) (ks : List Request) (k : Request) :
    c.run (ks ++ [k]) = (c.run ks).after k :=
  run_append c ks [k]

theorem config_run (c : Coordinator) (ks : List Request) : (c.run ks).config = c.config := by
  induction ks generalizing c with
  | nil => rfl
  | cons k ks ih => exact (ih (c.after k)).trans (config_after c k)

theorem rising_run (hc : c.pending.Rising) (ks : List Request) : (c.run ks).pending.Rising := by
  induction ks generalizing c with
  | nil => exact hc
  | cons k ks ih => exact ih (rising_after hc k)

theorem mem_run (hc : c.pending = []) (ks : List Request) :
    t ∈ (c.run ks).pending ↔ Waits c.config t ks := by
  have hrising : c.pending.Rising := hc ▸ .nil
  -- what waits is told by the last request and by what waited before it
  induction ks using List.reverseRecOn with
  | nil => exact iff_of_false (by simp [run, hc]) since_nil
  | append_singleton ks k ih =>
    rw [run_concat, mem_after (rising_run hrising ks), config_run, Waits, since_concat]
    exact or_congr_right (and_congr_right fun _ => ih)

/-- A target waits for a tick exactly where a check of the tick was accepted and not evaluated. -/
theorem exists_waits_iff : (∃ t : CheckTarget, t.tick = tick ∧ Waits config t ks) ↔
    Since (Request.Schedules config tick) (Request.Evaluates tick) ks := by
  induction ks using List.reverseRecOn with
  | nil => exact iff_of_false (fun ⟨_, _, h⟩ => since_nil h) since_nil
  | append_singleton ks k ih =>
    rw [since_concat, ← ih]
    simp only [Waits, since_concat]
    constructor
    · rintro ⟨t, ht, hask | ⟨hquiet, hwaits⟩⟩
      · exact .inl ⟨t, ht, hask⟩
      · exact .inr ⟨fun he => hquiet (.inl (ht ▸ he)), t, ht, hwaits⟩
    · rintro (⟨t, ht, hask⟩ | ⟨hquiet, t, ht, hwaits⟩)
      · exact ⟨t, ht, .inl hask⟩
      · by_cases hnew : k.Schedules config tick
        · obtain ⟨u, hu, hask⟩ := hnew
          exact ⟨u, hu, .inl hask⟩
        · refine ⟨t, ht, .inr ⟨?_, hwaits⟩⟩
          rw [ht]
          exact not_or.mpr ⟨hquiet, hnew⟩

/-- What waits, in which order, what an evaluation finds, takes out and says, and what a refused
request leaves, all told by the requests so far. -/
theorem pending_of_requests (config : Config) (budget : ReplayBudget) (ks : List Request) :
    let c := run { config, budget } ks
    (∀ t, t ∈ c.pending ↔ Waits config t ks) ∧
      c.pending.Pairwise (fun t u => t.tick < u.tick) ∧
      (∀ tick player, (c.evaluate tick player).2.1 = .ok none ↔
        ¬ Since (Request.Schedules config (tick + 1)) (Request.Evaluates (tick + 1)) ks) ∧
      (∀ tick player t, (∃ r, (c.evaluate tick player).2.1 = .ok (some r) ∧ r.target = t) ↔
        t.tick = tick + 1 ∧ Waits config t ks ∧ t.Comparable player) ∧
      (∀ tick player, (∃ d, (c.evaluate tick player).2.1 = .error d) ↔
        ∃ t : CheckTarget, t.tick = tick + 1 ∧ Waits config t ks ∧ ¬ t.Comparable player) ∧
      (∀ tick player d, (c.evaluate tick player).2.1 = .error d →
        (c.evaluate tick player).1.budget = c.budget ∧ (c.evaluate tick player).2.2 = []) ∧
      (∀ tick player, (c.evaluate tick player).1.pending =
        c.pending.filter fun t => t.tick != tick + 1) ∧
      ∀ m tick, (∃ next t records, c.schedule m tick = .ok (next, t, records) ∧
          (Request.schedule m tick).Asks config t) ∨
        (∃ d, c.schedule m tick = .error d) ∧ c.after (.schedule m tick) = c ∧
          ¬ (Request.schedule m tick).Schedules config tick := by
  intro c
  have hrising : c.pending.Rising := rising_run (c := { config, budget }) .nil ks
  have hmem : ∀ t, t ∈ c.pending ↔ Waits config t ks := fun t =>
    mem_run (c := { config, budget }) rfl ks
  have hdue : ∀ {tick t}, c.pending.at? (tick + 1) = some t ↔
      t.tick = tick + 1 ∧ Waits config t ks := by
    intro tick t
    rw [hrising.at?_eq_some, hmem]
  refine ⟨hmem, hrising, ?_, ?_, ?_, ?_, evaluate_pending c, ?_⟩
  · intro tick player
    rw [evaluate_eq_none, ← exists_waits_iff, Option.eq_none_iff_forall_ne_some]
    simp only [ne_eq, hdue, not_exists]
  · intro tick player t
    rw [evaluate_eq_some, hdue, and_assoc]
  · intro tick player
    simp only [exists_evaluate_eq_error, hdue, and_assoc]
  · intro tick player d hd
    rw [evaluate_of_eq_error c tick player hd]
    exact ⟨rfl, rfl⟩
  · intro m tick
    have hconfig : c.config = config := config_run { config, budget } ks
    rcases schedule_cases c m tick with ⟨t, hask, hs⟩ | ⟨hnone, d, hs⟩
    · rw [hconfig] at hask
      exact .inl ⟨_, t, _, hs, hask⟩
    · refine .inr ⟨⟨d, hs⟩, by simp [after, hs], ?_⟩
      rintro ⟨t, -, hask⟩
      rw [← hconfig] at hask
      exact hnone t hask

/-- A grammar of its own that binds words to the coordinates. The check is accepted and waits, and
no result comes of it. -/
theorem words_without_result :
    let q : Schema :=
      { name := checkTool, fixedOrder := true, hasOff := false, registersActiveState := false,
        arguments := [.leaf (.word "x"), .leaf (.word "y"), .leaf (.word "z")],
        expectsArguments := true, priority := 0 }
    let m := q.matchTokens [⟨.string, "1", ⟨0, 6, 7⟩⟩, ⟨.string, "2", ⟨0, 8, 9⟩⟩,
      ⟨.string, "3", ⟨0, 10, 11⟩⟩] (some ⟨.string, "check", ⟨0, 0, 5⟩⟩)
    let ks := [Request.schedule m 1]
    let c := run { config := {}, budget := { limit := 15 } } ks
    let player : Player := ⟨⟨1, 2, 3⟩, ⟨0, 0⟩⟩
    q.Accepted ∧
      ¬ ((∃ r, (c.evaluate 0 player).2.1 = .ok (some r)) ↔
        Since (Request.Schedules {} 1) (Request.Evaluates 1) ks) ∧
      (c.evaluate 0 player).2.1 = .error .wordCoordinate ∧
      (c.evaluate 0 player).1.pending = [] := by
  intro q m ks c player
  let t : CheckTarget :=
    ⟨1, some ⟨.word "1", .word "2", .word "3"⟩, none, .ofReal ({} : Config).posEpsilon,
      .ofReal ({} : Config).angEpsilon, some ⟨0, 0, 11⟩⟩
  have hm : m.succeeded = true ∧ CheckTarget.ofMatch m 1 {} = .ok t := ⟨rfl, rfl⟩
  have hsince : Since (Request.Schedules {} 1) (Request.Evaluates 1) ks :=
    ⟨[], _, [], rfl, ⟨t, rfl, m, rfl, hm.1, rfl, hm.2⟩, List.forall_mem_nil _⟩
  have hfail : (c.evaluate 0 player).2.1 = .error .wordCoordinate := rfl
  refine ⟨by decide, fun h => ?_, hfail, rfl⟩
  obtain ⟨r, hr⟩ := h.mpr hsince
  exact nomatch hfail.symm.trans hr

end Coordinator

end TasScript
