import TasScript.Proofs.Application
import TasScript.Proofs.Since

/-! The running tools as a function of what has happened. A tool runs exactly while its last start
stands: nothing has ended it since, and its duration has not run out. -/

namespace TasScript

abbrev Exchange : Type := Call × Except Defect Reply

def Session.history (s : Session) (cs : List Call) : List Exchange := cs.zip (s.replies cs)

namespace Exchange

def Accepts (x : Exchange) (tokens : List Token) (tick : Int) (m : Match) : Prop :=
  x = (.invoke tokens tick, .ok (.matched m)) ∧ m.succeeded = true

def Starts (x : Exchange) (n : String) (tokens : List Token) (tick : Int) (m : Match) : Prop :=
  x.Accepts tokens tick m ∧ m.tool = n ∧ m.isOff = false

/-- A restart, an accepted stop, or any accepted invocation of `n`, by which it is turned off or
started anew. -/
def Ends (x : Exchange) (n : String) : Prop :=
  x.1 = .restart ∨ ∃ tokens tick m, x.Accepts tokens tick m ∧ (m.tool = n ∨ m.tool = "stop")

def isTick (x : Exchange) : Bool :=
  match x.1 with
  | .advance => true
  | _ => false

end Exchange

/-- The last start of `n` in the history `h`, ended by nothing since and `age` ticks old. -/
def Stands (n : String) (h : List Exchange) (tokens : List Token) (tick : Int) (m : Match)
    (age : Nat) : Prop :=
  ∃ past x future, h = past ++ x :: future ∧ x.Starts n tokens tick m ∧
    (∀ y ∈ future, ¬ y.Ends n) ∧ future.countP Exchange.isTick = age

def Match.Lasts (m : Match) (age : Nat) : Prop :=
  ∀ d, m.duration = .ok (some d) → (age : Int) < d

theorem Exchange.Accepts.unique {x : Exchange} {tokens tokens' : List Token} {tick tick' : Int}
    {m m' : Match} (h : x.Accepts tokens tick m) (h' : x.Accepts tokens' tick' m') :
    tokens = tokens' ∧ tick = tick' ∧ m = m' := by
  simpa [and_assoc] using h.1.symm.trans h'.1

structure Exchange.Moves (x : Exchange) (n : String) (r : Schema) (old new : Option Tool) :
    Prop where
  starts : ∀ tokens tick m, x.Starts n tokens tick m → new = some (m.toolAt r tick 0)
  ends : (∀ tokens tick m, ¬ x.Starts n tokens tick m) → x.Ends n → new = none
  stays : ¬ x.Ends n → new = if x.isTick then old.bind ActiveTools.after? else old

theorem Exchange.Moves.quiet {x : Exchange} {n : String} {r : Schema} {old new : Option Tool}
    (hr : x.1 ≠ .restart) (hx : ∀ tokens tick m, ¬ x.Accepts tokens tick m)
    (h : new = if x.isTick then old.bind ActiveTools.after? else old) : x.Moves n r old new where
  starts := fun tokens tick m hs => absurd hs.1 (hx tokens tick m)
  ends := by
    rintro - (he | ⟨tokens, tick, m, ha, -⟩)
    · exact absurd he hr
    · exact absurd ha (hx tokens tick m)
  stays := fun _ => h

theorem stands_nil {n : String} {tokens : List Token} {tick : Int} {m : Match} {age : Nat} :
    ¬ Stands n [] tokens tick m age := by
  rintro ⟨past, x, future, h, -⟩
  simp at h

theorem stands_concat {n : String} {h : List Exchange} {x : Exchange} {tokens : List Token}
    {tick : Int} {m : Match} {age : Nat} :
    Stands n (h ++ [x]) tokens tick m age ↔
      x.Starts n tokens tick m ∧ age = 0 ∨
        ¬ x.Ends n ∧ ∃ k, Stands n h tokens tick m k ∧ age = k + if x.isTick then 1 else 0 := by
  constructor
  · rintro ⟨past, y, future, he, hy, hends, rfl⟩
    rcases List.concat_eq_append_cons he with ⟨-, rfl, rfl⟩ | ⟨init, rfl, rfl⟩
    · exact .inl ⟨hy, rfl⟩
    · refine .inr ⟨hends x (by simp), _, ⟨past, y, init, rfl, hy, ?_, rfl⟩, ?_⟩
      · exact fun w hw => hends w (by simp [hw])
      · simp [List.countP_append, List.countP_cons]
  · rintro (⟨hx, rfl⟩ | ⟨hx, k, ⟨past, y, future, rfl, hy, hends, rfl⟩, rfl⟩)
    · exact ⟨h, x, [], rfl, hx, by simp, rfl⟩
    · refine ⟨past, y, future ++ [x], by simp, hy, ?_, ?_⟩
      · intro w hw
        rcases List.mem_append.mp hw with hw | hw
        · exact hends w hw
        · obtain rfl := List.mem_singleton.mp hw
          exact hx
      · simp [List.countP_append, List.countP_cons]

namespace Session

variable {s : Session} {n : String} {r : Schema}

theorem accepts_perform {c : Call} {tokens : List Token} {tick : Int} {m : Match} :
    Exchange.Accepts (c, (s.perform c).result) tokens tick m ↔
      c = .invoke tokens tick ∧ (s.invoke tokens tick).result = .ok m ∧ m.succeeded = true := by
  unfold Exchange.Accepts
  cases c with
  | invoke tokens' tick' =>
    cases hres : (s.invoke tokens' tick').result with
    | error d =>
      constructor
      · rintro ⟨he, -⟩
        simp [perform, hres, Except.map] at he
      · rintro ⟨he, hm, -⟩
        obtain ⟨rfl, rfl⟩ := Call.invoke.inj he
        simp [hres] at hm
    | ok m' =>
      constructor
      · rintro ⟨he, hok⟩
        simp only [perform, hres, Except.map, Prod.mk.injEq, Call.invoke.injEq, Except.ok.injEq,
          Reply.matched.injEq] at he
        obtain ⟨⟨rfl, rfl⟩, rfl⟩ := he
        exact ⟨rfl, hres, hok⟩
      · rintro ⟨he, hm, hok⟩
        obtain ⟨rfl, rfl⟩ := Call.invoke.inj he
        obtain rfl := Except.ok.inj (hres.symm.trans hm)
        exact ⟨by simp [perform, hres, Except.map], hok⟩
  | _ => simp

theorem Standard.get?_invoke (hs : s.Standard) (hn : Registry.builtIn.lookup? n = some r)
    (hreg : r.registersActiveState = true) (tokens : List Token) (tick : Int) :
    (∃ m, (s.invoke tokens tick).result = .ok m ∧ m.succeeded = true ∧
        (s.invoke tokens tick).session.active.get? n =
          if m.tool = n ∧ m.isOff = false then some (m.toolAt r tick 0)
          else if m.tool = n ∨ m.tool = "stop" then none
          else s.active.get? n) ∨
      (∀ m, (s.invoke tokens tick).result = .ok m → m.succeeded = false) ∧
        (s.invoke tokens tick).session.active.get? n = s.active.get? n := by
  obtain ⟨hcat, rfl⟩ := Registry.mem_of_lookup?_builtIn hn
  rcases invoke_cases hs.registry tokens tick with
    ⟨first, arguments, q, b, rfl, hq, hok, hb, hact, -, hres⟩ | ⟨hsame, hno⟩
  · obtain ⟨hqcat, hqname⟩ := Registry.mem_of_lookup?_builtIn hq
    have heq : q.name = r.name → q = r := by
      intro he
      rw [← hqname, he, hn] at hq
      exact (Option.some.inj hq).symm
    obtain ⟨b', hb', -, heff⟩ := ActiveTools.apply_matched s.active tick hqcat hok
    obtain rfl : b = b' := Except.ok.inj (hb.symm.trans hb')
    rw [hact, heff, ActiveTools.effect_registering hqcat hcat hreg heq]
    rcases hres with hres | ⟨hcheck, d, hres⟩
    · refine .inl ⟨_, hres, hok, ?_⟩
      rw [Schema.matchTokens_tool]
    · refine .inr ⟨fun m hm => by simp [hres] at hm, ?_⟩
      -- only a check fails after it was applied, and no check keeps running
      have hkeep := ((Registry.roles_catalogue r hcat).2.2 hreg).2
      have hne : q.name ≠ r.name := fun h => hkeep (h ▸ hcheck)
      have hns : q.name ≠ "stop" := by
        rw [hcheck]
        decide
      simp [hne, hns]
  · exact .inr ⟨hno, by rw [hsame]⟩

theorem Standard.moves_invoke (hs : s.Standard) (hn : Registry.builtIn.lookup? n = some r)
    (hreg : r.registersActiveState = true) (tokens : List Token) (tick : Int) :
    Exchange.Moves (.invoke tokens tick, (s.perform (.invoke tokens tick)).result) n r
      (s.active.get? n) ((s.perform (.invoke tokens tick)).session.active.get? n) := by
  have hacc := @accepts_perform s (.invoke tokens tick)
  change Exchange.Moves _ n r _ ((s.invoke tokens tick).session.active.get? n)
  rcases hs.get?_invoke hn hreg tokens tick with ⟨m, hm, hok, hget⟩ | ⟨hno, hget⟩
  · have hx := hacc.mpr ⟨rfl, hm, hok⟩
    refine ⟨?_, ?_, ?_⟩
    · rintro tokens' tick' m' ⟨ha, htool, hoff⟩
      obtain ⟨rfl, rfl, rfl⟩ := ha.unique hx
      rw [hget, if_pos ⟨htool, hoff⟩]
    · rintro hnot (he | ⟨tokens', tick', m', ha, hend⟩)
      · simp at he
      · obtain ⟨rfl, rfl, rfl⟩ := ha.unique hx
        rw [hget, if_neg fun h => hnot _ _ _ ⟨hx, h⟩, if_pos hend]
    · intro hnot
      have hend : ¬ (m.tool = n ∨ m.tool = "stop") := fun h => hnot (.inr ⟨_, _, m, hx, h⟩)
      have hstart : ¬ (m.tool = n ∧ m.isOff = false) := fun h => hend (.inl h.1)
      rw [hget, if_neg hstart, if_neg hend]
      rfl
  · refine .quiet (by simp) (fun tokens' tick' m ha => ?_) hget
    obtain ⟨he, hm, hok⟩ := hacc.mp ha
    obtain ⟨rfl, rfl⟩ := Call.invoke.inj he
    simp [hno m hm] at hok

theorem Standard.moves (hs : s.Standard) (hn : Registry.builtIn.lookup? n = some r)
    (hreg : r.registersActiveState = true) (c : Call) :
    Exchange.Moves (c, (s.perform c).result) n r (s.active.get? n)
      ((s.perform c).session.active.get? n) := by
  have hacc := @accepts_perform s c
  cases c with
  | invoke tokens tick => exact hs.moves_invoke hn hreg tokens tick
  | validate tokens =>
    refine .quiet (by simp) (fun _ _ _ ha => by simpa using hacc.mp ha) ?_
    rw [perform_validate_session]
    rfl
  | advance =>
    refine .quiet (by simp) (fun _ _ _ ha => by simpa using hacc.mp ha) ?_
    exact hs.sound.get?_advance n
  | evaluate tick player =>
    exact .quiet (by simp) (fun _ _ _ ha => by simpa using hacc.mp ha) rfl
  | restart =>
    refine ⟨fun _ _ _ h => by simpa using hacc.mp h.1, fun _ _ => rfl, fun h => ?_⟩
    exact absurd (.inl rfl) h

theorem Standard.perform (hs : s.Standard) (c : Call) : (s.perform c).session.Standard := by
  cases c with
  | invoke tokens tick =>
    change (s.invoke tokens tick).session.Standard
    rcases invoke_cases hs.registry tokens tick with
      ⟨first, arguments, q, b, rfl, hq, hok, hb, hact, hreg, -⟩ | ⟨hsame, -⟩
    · obtain ⟨hcat, hname⟩ := Registry.mem_of_lookup?_builtIn hq
      obtain ⟨b', hb', hsound, heff⟩ := ActiveTools.apply_matched s.active tick hcat hok
      obtain rfl : b = b' := Except.ok.inj (hb.symm.trans hb')
      refine ⟨hreg, hact ▸ hsound hs.sound, fun n t ht => ?_⟩
      rw [hact, heff] at ht
      rcases ActiveTools.effect_eq_some ht with hold | ⟨hn, hr⟩
      · exact hs.registers n t hold
      · exact ⟨q, by rw [← hn, hname, hq], hr⟩
    · rwa [hsame]
  | validate tokens =>
    rwa [perform_validate_session]
  | advance =>
    refine ⟨hs.registry, hs.sound.advance, fun n t ht => ?_⟩
    change s.active.advance.1.get? n = some t at ht
    rw [hs.sound.get?_advance] at ht
    obtain ⟨u, hu, -⟩ := Option.bind_eq_some_iff.mp ht
    exact hs.registers n u hu
  | evaluate tick player => exact ⟨hs.registry, hs.sound, hs.registers⟩
  | restart =>
    refine ⟨hs.registry, ActiveTools.sound_empty, fun n t ht => ?_⟩
    simp [Session.perform, restart, ActiveTools.get?, Entries.get?] at ht

theorem Standard.run (hs : s.Standard) (cs : List Call) : (s.run cs).Standard := by
  induction cs generalizing s with
  | nil => exact hs
  | cons c cs ih => exact ih (hs.perform c)

theorem Standard.exists_of_mem_history (hs : s.Standard) {cs : List Call} {x : Exchange}
    (hx : x ∈ s.history cs) : ∃ q : Session, q.Standard ∧ x.2 = (q.perform x.1).result := by
  induction cs generalizing s with
  | nil => simp [history, replies] at hx
  | cons c cs ih =>
    rcases List.mem_cons.mp hx with rfl | hx
    · exact ⟨s, hs, rfl⟩
    · exact ih (hs.perform c) hx

theorem Standard.match_of_accepts (hs : s.Standard) {c : Call} {tokens : List Token} {tick : Int}
    {m : Match} (hx : Exchange.Accepts (c, (s.perform c).result) tokens tick m) :
    ∃ first arguments q, tokens = first :: arguments ∧
      Registry.builtIn.lookup? first.text = some q ∧ m = q.matchTokens arguments (some first) := by
  obtain ⟨-, hm, hok⟩ := accepts_perform.mp hx
  rcases invoke_cases hs.registry tokens tick with
    ⟨first, arguments, q, b, rfl, hq, -, -, -, -, hres | ⟨-, d, hres⟩⟩ | ⟨-, hno⟩
  · exact ⟨first, arguments, q, rfl, hq, Except.ok.inj (hm.symm.trans hres)⟩
  · simp [hres] at hm
  · simp [hno m hm] at hok

end Session

end TasScript
