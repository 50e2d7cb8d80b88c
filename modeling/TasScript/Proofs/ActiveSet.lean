import TasScript.Proofs.Standing

/-! The running tools of a session over the catalogue, told by what has happened in it. A tool runs
as its last start left it, and ends on the tick on which its duration has run out. -/

namespace TasScript

namespace Session

variable {s : Session} {n : String} {r : Schema} {tokens : List Token} {tick : Int} {m : Match}
  {age : Nat}

theorem Standard.starts_reading (hs : s.Standard) {c : Call}
    (hx : Exchange.Starts (c, (s.perform c).result) n tokens tick m) :
    ∃ first last duration, tokens.head? = some first ∧ tokens.getLast? = some last ∧
      m.span = some (first.span.covering last.span) ∧ m.duration = .ok duration ∧
      ∀ d, duration = some d → 1 ≤ d := by
  obtain ⟨hacc, -, -⟩ := hx
  obtain ⟨first, arguments, q, rfl, hq, rfl⟩ := hs.match_of_accepts hacc
  obtain ⟨hcat, -⟩ := Registry.mem_of_lookup?_builtIn hq
  obtain ⟨duration, hd, hpos⟩ := Schema.duration_of_catalogue hcat arguments (some first)
  exact ⟨first, arguments.getLast?.getD first, duration, rfl, List.getLast?_cons,
    Schema.span_of_succeeded hacc.2, hd, hpos⟩

theorem Standard.lasts_of_starts (hs : s.Standard) {c : Call}
    (hx : Exchange.Starts (c, (s.perform c).result) n tokens tick m) : m.Lasts 0 := by
  obtain ⟨-, -, duration, -, -, -, hd, hpos⟩ := hs.starts_reading hx
  intro d hdur
  have hone : 1 ≤ d := hpos d (Except.ok.inj (hd.symm.trans hdur))
  omega

theorem Standard.tracked_run (hs : s.Standard) (hn : Registry.builtIn.lookup? n = some r)
    (hreg : r.registersActiveState = true) {h : List Exchange}
    (ht : Tracked n r h (s.active.get? n)) (cs : List Call) :
    Tracked n r (h ++ s.history cs) ((s.run cs).active.get? n) := by
  -- the history of the calls so far grows at its end while the calls are taken from the front
  induction cs generalizing s h with
  | nil =>
    rw [history, replies, List.zip_nil_right, List.append_nil]
    exact ht
  | cons c cs ih =>
    have hstep := ht.concat (hs.moves hn hreg c) fun _ _ _ hx => hs.lasts_of_starts hx
    rw [show h ++ s.history (c :: cs) =
      (h ++ [(c, (s.perform c).result)]) ++ (s.perform c).session.history cs by
        simp [history, replies]]
    exact ih (hs.perform c) hstep

theorem tracked_of_start (config : Config) (hn : Registry.builtIn.lookup? n = some r)
    (hreg : r.registersActiveState = true) (cs : List Call) :
    Tracked n r ((start .builtIn config).history cs)
      (((start .builtIn config).run cs).active.get? n) :=
  (standard_start config).tracked_run hn hreg (tracked_nil n r) cs

theorem Standard.contains_iff (hs : s.Standard) {h : List Exchange}
    (ht : ∀ r, Registry.builtIn.lookup? n = some r → r.registersActiveState = true →
      Tracked n r h (s.active.get? n)) :
    s.active.contains n = true ↔ ∃ r tokens tick m age, Registry.builtIn.lookup? n = some r ∧
      r.registersActiveState = true ∧ Stands n h tokens tick m age ∧ m.Lasts age := by
  constructor
  · intro hc
    obtain ⟨t, hget⟩ := Option.isSome_iff_exists.mp hc
    obtain ⟨r, hn, hreg⟩ := hs.registers n t hget
    obtain ⟨tokens, tick, m, age, hst⟩ := (ht r hn hreg).isSome_iff.mp hc
    exact ⟨r, tokens, tick, m, age, hn, hreg, hst⟩
  · rintro ⟨r, tokens, tick, m, age, hn, hreg, hst⟩
    exact (ht r hn hreg).isSome_iff.mpr ⟨tokens, tick, m, age, hst⟩

theorem Standard.mem_expired_iff (hs : s.Standard) {h : List Exchange}
    (ht : ∀ r, Registry.builtIn.lookup? n = some r → r.registersActiveState = true →
      Tracked n r h (s.active.get? n)) :
    n ∈ s.active.advance.2.1.map (·.name) ↔ ∃ r tokens tick m age,
      Registry.builtIn.lookup? n = some r ∧ r.registersActiveState = true ∧
        Stands n h tokens tick m age ∧ m.duration = .ok (some ((age : Int) + 1)) := by
  rw [hs.sound.mem_expired_iff]
  constructor
  · rintro ⟨t, hget, hend⟩
    obtain ⟨r, hn, hreg⟩ := hs.registers n t hget
    obtain ⟨tokens, tick, m, age, hst⟩ := (ht r hn hreg).expires_iff.mp ⟨t, hget, hend⟩
    exact ⟨r, tokens, tick, m, age, hn, hreg, hst⟩
  · rintro ⟨r, tokens, tick, m, age, hn, hreg, hst⟩
    exact (ht r hn hreg).expires_iff.mpr ⟨tokens, tick, m, age, hst⟩

theorem Standard.stands_reading (hs : s.Standard) {cs : List Call}
    (h : Stands n (s.history cs) tokens tick m age) :
    ∃ first last duration, tokens.head? = some first ∧ tokens.getLast? = some last ∧
      m.span = some (first.span.covering last.span) ∧ m.duration = .ok duration := by
  obtain ⟨past, x, future, heq, hx, -⟩ := h
  have hmem : x ∈ s.history cs := heq ▸ List.mem_append_right past List.mem_cons_self
  obtain ⟨q, hq, hres⟩ := hs.exists_of_mem_history hmem
  obtain ⟨c, reply⟩ := x
  obtain rfl : reply = (q.perform c).result := hres
  obtain ⟨first, last, duration, hfirst, hlast, hspan, hd, -⟩ := hq.starts_reading hx
  exact ⟨first, last, duration, hfirst, hlast, hspan, hd⟩

/-- What runs, as what, and what ends on the next tick, all told by the history. -/
theorem active_of_history (config : Config) (calls : List Call) (n : String) :
    let s := (start .builtIn config).run calls
    let h := (start .builtIn config).history calls
    (s.active.contains n = true ↔ ∃ r tokens tick m age,
        Registry.builtIn.lookup? n = some r ∧ r.registersActiveState = true ∧
          Stands n h tokens tick m age ∧ m.Lasts age) ∧
      (∀ r tokens tick m age, Registry.builtIn.lookup? n = some r →
        r.registersActiveState = true → Stands n h tokens tick m age → m.Lasts age →
          ∃ first last duration, tokens.head? = some first ∧ tokens.getLast? = some last ∧
            m.duration = .ok duration ∧
            s.active.inOrder.filter (fun t => t.name == n) =
              [⟨n, first.span.line, first.span.startCol, last.span.endCol, r.priority, tick,
                duration.map fun d : Int => (d - age).toNat⟩]) ∧
      ∃ tools, (s.perform .advance).result = .ok (.expired tools) ∧
        (tools.map (·.name)).Nodup ∧
          (n ∈ tools.map (·.name) ↔ ∃ r tokens tick m age,
            Registry.builtIn.lookup? n = some r ∧ r.registersActiveState = true ∧
              Stands n h tokens tick m age ∧ m.duration = .ok (some ((age : Int) + 1))) := by
  intro s h
  have hs : s.Standard := (standard_start config).run calls
  have ht := fun r hn hreg => tracked_of_start (n := n) (r := r) config hn hreg calls
  refine ⟨hs.contains_iff ht, ?_, s.active.advance.2.1, rfl, hs.sound.nodup_expired,
    hs.mem_expired_iff ht⟩
  intro r tokens tick m age hn hreg hst hl
  obtain ⟨-, hname⟩ := Registry.mem_of_lookup?_builtIn hn
  obtain ⟨first, last, duration, hfirst, hlast, hspan, hd⟩ :=
    (standard_start config).stands_reading hst
  refine ⟨first, last, duration, hfirst, hlast, hd, ?_⟩
  rw [hs.sound.filter_inOrder, (ht r hn hreg).runs tokens tick m age hst hl]
  cases duration <;>
    simp [Match.toolAt, hname, hspan, hd, Span.covering, Except.toOption]

end Session

end TasScript
