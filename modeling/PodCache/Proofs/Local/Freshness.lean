import PodCache.Proofs.Local.Contents

/-!
# Freshness of local caches

A run of a local cache is a sequence of requests; maintenance passes may come anywhere in it.  A
lookup that hits gives the value of the most recent set of its key, with no removal of the key
in between, provided that this set was taken (`latest_set_of_hit`).  A set is refused for its cost
alone while the cache is open, and a refused set leaves the older value of its key readable
(`refused_set_leaves_older_value`).
-/

namespace PodCache

/-- What a local cache may be asked to do. -/
inductive LocalRequest (V : Type) where
  | get (key : String)
  | set (key : String) (value : V) (cost : Nat)
  | delete (key : String)
  | clear
  | close
  | maintain

/-- Whether a request neither sets nor removes a key. -/
def LocalRequest.Spares {V : Type} (key : String) : LocalRequest V → Prop
  | .set k _ _ | .delete k => k ≠ key
  | .clear | .close => False
  | .get _ | .maintain => True

namespace LocalCache

variable {V : Type}

/-- The cache after a request. -/
def serve (c : LocalCache V) : LocalRequest V → LocalCache V
  | .get key => (c.get key).2
  | .set key value cost => (c.set key value cost).2
  | .delete key => c.delete key
  | .clear => c.clear
  | .close => c.close
  | .maintain => c.maintain

/-- The cache after a sequence of requests. -/
def run (c : LocalCache V) (requests : List (LocalRequest V)) : LocalCache V :=
  requests.foldl serve c

theorem run_append_singleton (c : LocalCache V) (rs : List (LocalRequest V)) (r : LocalRequest V) :
    c.run (rs ++ [r]) = (c.run rs).serve r := by
  simp [run]

/-! ## What a request does to the value of a key -/

theorem contents_serve_of_spares {c : LocalCache V} {r : LocalRequest V} {key : String} {v : V}
    (hr : r.Spares key) (h : (c.serve r).contents key = some v) : c.contents key = some v := by
  cases r with
  | get k => rwa [serve, contents_get] at h
  | set k w cost =>
    rw [serve] at h
    by_cases ht : c.takes cost
    · have hv := contents_set ht k w key v h
      rwa [Contents.put_of_ne _ _ hr] at hv
    · rwa [set_of_not_takes ht] at h
  | delete k => rwa [serve, contents_delete, Contents.erase_of_ne _ hr] at h
  | clear | close => exact hr.elim
  | maintain => exact c.contents_maintain_sub key v h

/-- After a request that concerns a key, only a set can have left a value for it. -/
theorem eq_set_of_contents_serve {c : LocalCache V} {r : LocalRequest V} {key : String} {v : V}
    (hr : ¬ r.Spares key) (h : (c.serve r).contents key = some v) :
    ∃ w cost, r = .set key w cost := by
  cases r with
  | get k => exact absurd trivial hr
  | set k w cost =>
    obtain rfl : k = key := not_not.1 hr
    exact ⟨w, cost, rfl⟩
  | delete k =>
    obtain rfl : k = key := not_not.1 hr
    simp [serve] at h
  | clear => simp [serve] at h
  | close => simp [serve] at h
  | maintain => exact absurd trivial hr

/-! ## Which sets are refused -/

/-- A cache of some kind and configuration takes what it took when it was new, unless it holds
nothing and never will. -/
def Steady (kind : Kind) (config : LocalConfig) (c : LocalCache V) : Prop :=
  (∀ cost, c.takes cost ↔ ¬ (kind = .frequency ∧ config.maxCost.toNat < cost)) ∨
    c.contents = Contents.empty ∧ ∀ cost, ¬ c.takes cost

/-- Closing makes a cache refuse everything, or changes nothing about what it takes. -/
theorem takes_close (c : LocalCache V) :
    (∀ cost, c.close.takes cost ↔ c.takes cost) ∨ ∀ cost, ¬ c.close.takes cost := by
  cases c with
  | recency c => exact .inl fun _ => Iff.rfl
  | random c => exact .inl fun _ => Iff.rfl
  | frequency c =>
    refine .inr fun cost h => h (.inr ?_)
    rfl

theorem Steady.serve {kind : Kind} {config : LocalConfig} {c : LocalCache V}
    (h : c.Steady kind config) (r : LocalRequest V) : (c.serve r).Steady kind config := by
  rcases h with h | ⟨hc, ht⟩
  · cases r with
    | get k => exact .inl fun cost => (takes_get c k cost).trans (h cost)
    | set k w n => exact .inl fun cost => (takes_set c k w n cost).trans (h cost)
    | delete k => exact .inl fun cost => (takes_delete c k cost).trans (h cost)
    | clear => exact .inl fun cost => (takes_clear c cost).trans (h cost)
    | close =>
      rcases takes_close c with heq | hno
      · exact .inl fun cost => (heq cost).trans (h cost)
      · exact .inr ⟨contents_close c, hno⟩
    | maintain => exact .inl fun cost => (takes_maintain c cost).trans (h cost)
  · refine .inr ?_
    cases r with
    | get k => exact ⟨(contents_get c k).trans hc, fun cost => mt (takes_get c k cost).1 (ht cost)⟩
    | set k w n =>
      rw [LocalCache.serve, set_of_not_takes (ht n)]
      exact ⟨hc, ht⟩
    | delete k =>
      refine ⟨?_, fun cost => mt (takes_delete c k cost).1 (ht cost)⟩
      rw [LocalCache.serve, contents_delete, hc]
      funext k'
      simp [Contents.erase_apply]
    | clear => exact ⟨contents_clear c, fun cost => mt (takes_clear c cost).1 (ht cost)⟩
    | close =>
      rcases takes_close c with heq | hno
      · exact ⟨contents_close c, fun cost => mt (heq cost).1 (ht cost)⟩
      · exact ⟨contents_close c, hno⟩
    | maintain =>
      refine ⟨?_, fun cost => mt (takes_maintain c cost).1 (ht cost)⟩
      funext k
      rw [Contents.empty_apply, Option.eq_none_iff_forall_ne_some]
      intro v hv
      have := c.contents_maintain_sub k v hv
      rw [hc] at this
      cases this

theorem steady_run {chance : Chance} {kind : Kind} {config : LocalConfig} {c : LocalCache V}
    (h : new chance kind config = .ok c) (rs : List (LocalRequest V)) :
    (c.run rs).Steady kind config := by
  induction rs using List.reverseRecOn with
  | nil => exact .inl (takes_of_new h)
  | append_singleton rs r ih =>
    rw [run_append_singleton]
    exact ih.serve r

/-! ## The most recent set -/

/-- The configuration of a small frequency cache. -/
def smallConfig : LocalConfig := { numCounters := 100, maxCost := 10 }

/-- A lookup that hits has behind it a most recent set of its key, after which nothing removed
the key.  It gives the value of that set exactly if the set was taken or the same value had been
readable before; the set was refused exactly if the cache is a frequency cache and the cost exceeds
its bound. -/
theorem latest_set_of_hit {chance : Chance} {kind : Kind} {config : LocalConfig}
    {c : LocalCache V} (h : new chance kind config = .ok c) {rs : List (LocalRequest V)}
    {key : String} {v : V} (hit : ((c.run rs).get key).1 = some v) :
    ∃ earlier w cost later, rs = earlier ++ .set key w cost :: later ∧
      (∀ r ∈ later, r.Spares key) ∧
      (v = w ↔ ((c.run earlier).set key w cost).1 = true ∨
        ((c.run earlier).get key).1 = some w) ∧
      (((c.run earlier).set key w cost).1 = false ↔
        kind = .frequency ∧ config.maxCost.toNat < cost) := by
  rw [get_fst] at hit
  induction rs using List.reverseRecOn with
  | nil =>
    rw [run, List.foldl_nil, contents_of_new h] at hit
    cases hit
  | append_singleton rs r ih =>
    rw [run_append_singleton] at hit
    by_cases hr : r.Spares key
    · obtain ⟨earlier, w, cost, later, rfl, hl, hrest⟩ := ih (contents_serve_of_spares hr hit)
      refine ⟨earlier, w, cost, later ++ [r], by simp, ?_, hrest⟩
      intro r' hr'
      rcases List.mem_append.1 hr' with hr' | hr'
      · exact hl r' hr'
      · rwa [List.mem_singleton.1 hr']
    · obtain ⟨w, cost, rfl⟩ := eq_set_of_contents_serve hr hit
      refine ⟨rs, w, cost, [], rfl, by simp, ?_, ?_⟩
      · rw [set_fst, get_fst]
        by_cases ht : (c.run rs).takes cost
        · have hv := contents_set ht key w key v hit
          rw [Contents.put_self] at hv
          simp [ht, Option.some.inj hv]
        · rw [serve, set_of_not_takes ht] at hit
          simp [ht, hit]
      · rw [Bool.eq_false_iff, ne_eq, set_fst]
        rcases steady_run h rs with hs | ⟨hempty, hno⟩
        · rw [hs cost, not_not]
        · -- a cache that refuses everything holds nothing, so nothing could have hit
          rw [serve, set_of_not_takes (hno cost), hempty] at hit
          cases hit

theorem latest_set_of_hit_after_refusal :
    ∃ c : LocalCache Nat, new Chance.standard .frequency smallConfig = .ok c ∧
      ((c.run [.set "k" 1 1, .set "k" 2 11]).get "k").1 = some 1 ∧
      ∃ earlier w cost later,
        [.set "k" 1 1, .set "k" 2 11] = earlier ++ LocalRequest.set "k" w cost :: later ∧
        (∀ r ∈ later, r.Spares "k") ∧
        (1 = w ↔ ((c.run earlier).set "k" w cost).1 = true ∨
          ((c.run earlier).get "k").1 = some w) ∧
        (((c.run earlier).set "k" w cost).1 = false ↔
          Kind.frequency = .frequency ∧ smallConfig.maxCost.toNat < cost) :=
  ⟨_, rfl, by decide +kernel, latest_set_of_hit rfl (by decide +kernel)⟩

/-- A set that is refused for its cost leaves the value of an older set readable. -/
theorem refused_set_leaves_older_value :
    ∃ c : LocalCache Nat, new Chance.standard .frequency smallConfig = .ok c ∧
      ((c.run [.set "k" 1 1]).set "k" 2 11).1 = false ∧
      ((c.run [.set "k" 1 1, .set "k" 2 11]).get "k").1 = some 1 :=
  ⟨_, rfl, by decide +kernel, by decide +kernel⟩

end LocalCache

end PodCache
