import PodCache.Proofs.Bus.Law
import PodCache.Proofs.Cluster.Calls
import PodCache.Proofs.Cluster.Coherence

/-!
# What drives the shared state

Every cluster in which calls are made has what the account of the calls says (`Cluster.Reflects`),
whatever is looked up, delivered or handed to pods in between and whatever their local caches are.
Two runs with the same calls have the same outcome therefore (`Cluster.outcome_of_same_calls`).
-/

namespace PodCache

open Std (TreeMap)

variable {V : Type}

/-! ## Steps of clusters whose pods may be closed -/

/-- Something that happens in a cluster. -/
inductive Step (V : Type) where
  | move (m : Move V)
  | close (i : Nat)
  /-- A pod is handed an event, whoever made it. -/
  | hear (i : Nat) (e : Event)

namespace Step

def call? : Step V → Option (Call V)
  | .move (.write i w) => some (.write i w)
  | .close i => some (.close i)
  | .move (.build ..) | .move (.get ..) | .move (.deliver ..) | .move (.maintain _) | .hear .. =>
    none

def profile? : Step V → Option (Profile V)
  | .move (.build _ b) => some b.profile
  | .move (.write ..) | .move (.get ..) | .move (.deliver ..) | .move (.maintain _) | .close _
  | .hear .. => none

end Step

namespace Cluster

/-- A cluster after a step. -/
def next (c : Cluster V) : Step V → Cluster V
  | .move m => c.after m
  | .close i => (c.act i Pod.close).2
  | .hear i e => (c.act i fun _ => Pod.handleEvent e).2

/-- What a call gives. -/
def reply (c : Cluster V) : Step V → Option (Except Error Unit)
  | .move (.write i w) => (c.act i fun services => w.perform services).1.map Prod.fst
  | .close i => (c.act i Pod.close).1.map Prod.fst
  | _ => none

/-- The payloads that a step sends on a channel: what somebody hears of it who has listened to
everything before. -/
def sent (c : Cluster V) (channel : String) (s : Step V) : List Bytes :=
  ((c.next s).shared.bus.topic channel).since (c.shared.bus.topic channel).sent

/-- Whether a step can be made: a pod can be built, or is there. -/
def CanStep (c : Cluster V) : Step V → Prop
  | .move m => c.Can m
  | .close i | .hear i _ => i < c.members.size

instance (c : Cluster V) (s : Step V) : Decidable (c.CanStep s) :=
  match s with
  | .move m => inferInstanceAs (Decidable (c.Can m))
  | .close i | .hear i _ => inferInstanceAs (Decidable (i < c.members.size))

def through (c : Cluster V) (steps : List (Step V)) : Cluster V := steps.foldl next c

def CanAll (c : Cluster V) : List (Step V) → Prop
  | [] => True
  | s :: steps => c.CanStep s ∧ (c.next s).CanAll steps

instance decidableCanAll (c : Cluster V) : (steps : List (Step V)) → Decidable (c.CanAll steps)
  | [] => inferInstanceAs (Decidable True)
  | s :: steps =>
    have := decidableCanAll (c.next s) steps
    inferInstanceAs (Decidable (c.CanStep s ∧ (c.next s).CanAll steps))

def replies (c : Cluster V) : List (Step V) → List (Except Error Unit)
  | [] => []
  | s :: steps => (c.reply s).toList ++ (c.next s).replies steps

def sentAll (c : Cluster V) (channel : String) : List (Step V) → List Bytes
  | [] => []
  | s :: steps => c.sent channel s ++ (c.next s).sentAll channel steps

theorem canAll_append {c : Cluster V} {early late : List (Step V)} :
    c.CanAll (early ++ late) ↔ c.CanAll early ∧ (c.through early).CanAll late := by
  induction early generalizing c with
  | nil => exact (and_iff_right trivial).symm
  | cons s early ih => exact (and_congr_right fun _ => ih).trans and_assoc.symm

/-! ## Clusters that have what an account says -/

/-- A cluster has what an account of the calls of its pods says. -/
structure Reflects (profiles : List (Profile V)) (capacity : Nat) (c : Cluster V) (a : Account) :
    Prop where
  handles : c.shared.store.closed.size = c.members.size + 1
  synchronizers : c.shared.bus.synchronizers.size = c.members.size
  capacity_eq : c.shared.bus.capacity = capacity
  contents : c.shared.store.contents = a.contents
  topic : ∀ channel, c.shared.bus.topic channel = ({} : Topic).sendAll capacity (a.sentOn channel)
  closed_lt : ∀ i ∈ a.closed, i < c.members.size
  pods : ∀ i, i < c.members.size →
    ∃ p k, profiles[i]? = some p ∧ c.Plays p i k ∧ (k.closed = true ↔ i ∈ a.closed)

/-- A step does what an account says of the call that is made, if one is. -/
structure Follows (profiles : List (Profile V)) (capacity : Nat) (c : Cluster V) (a : Account)
    (s : Step V) : Prop where
  reflects : (c.next s).Reflects profiles capacity (s.call?.elim a (a.call profiles))
  reply : c.reply s = s.call?.map (a.reply profiles)
  size : (c.next s).members.size = c.members.size + s.profile?.toList.length

variable {profiles : List (Profile V)} {capacity : Nat} {c c' : Cluster V} {a a' : Account}
  {i : Nat} {k k' : Core V (Shared Unit)} {p : Profile V} {s : Step V}

theorem reflects_start (profiles : List (Profile V)) (contents : TreeMap String Bytes) (n : Nat) :
    (start contents n).Reflects profiles (leastPowerOfTwo (max 1 n)) { contents } where
  handles := rfl
  synchronizers := rfl
  capacity_eq := rfl
  contents := rfl
  topic := fun channel => by
    simp [start, Bus.withCapacity, Bus.topic, Account.sentOn, Account.bound, Topic.sendAll]
  closed_lt := fun _ h => absurd h List.not_mem_nil
  pods := fun _ h => absurd h (Nat.not_lt_zero _)

/-- One pod has acted and is what the account says of it; the others are as they were. -/
theorem Reflects.of_acts (h : c.Reflects profiles capacity a) (ha : Acts i k' c c')
    (hl : Shared.Leaves i c.shared k'.world) (hp : profiles[i]? = some p) (hf : k'.Fits p)
    (hadmits : k'.closed = false → k'.world.Admits i p.channel)
    (hself : k'.closed = true ↔ i ∈ a'.closed)
    (hothers : ∀ j, j ≠ i → (j ∈ a'.closed ↔ j ∈ a.closed))
    (hcontents : k'.world.store.contents = a'.contents)
    (htopic : ∀ channel, k'.world.bus.topic channel =
      ({} : Topic).sendAll capacity (a'.sentOn channel)) : c'.Reflects profiles capacity a' := by
  have hworld := ha.shared
  have hsize := ha.size
  refine ⟨?_, ?_, ?_, ?_, ?_, fun j hj => ?_, fun j hj => ?_⟩
  · rw [hworld, hl.handles, h.handles, hsize]
  · rw [hworld, hl.synchronizers, h.synchronizers, hsize]
  · rw [hworld, hl.capacity, h.capacity_eq]
  · rw [hworld, hcontents]
  · rw [hworld]
    exact htopic
  · by_cases hji : j = i
    · subst hji
      exact ha.holds.lt
    · rw [hsize]
      exact h.closed_lt j ((hothers j hji).1 hj)
  · by_cases hji : j = i
    · subst hji
      exact ⟨p, k', hp, ⟨ha.holds, hf, fun ho => hworld ▸ hadmits ho⟩, hself⟩
    · obtain ⟨q, k, hq, hk, hc⟩ := h.pods j (hsize ▸ hj)
      have hadmits : c.shared.Admits j q.channel → c'.shared.Admits j q.channel :=
        hworld ▸ hl.admits j q.channel hji
      exact ⟨q, _, hq, hk.of_eq (ha.others j hji) hadmits, hc.trans (hothers j hji).symm⟩

/-- What an account says is not touched by what a pod does that makes no call. -/
theorem Reflects.of_spares (h : c.Reflects profiles capacity a) (hk : c.Holds i k)
    (ha : Acts i k' c c') (hs : k'.settings = k.settings) (hc : k'.closed = k.closed)
    (hsp : Spares i c.shared k'.world) : c'.Reflects profiles capacity a := by
  obtain ⟨p, k₀, hp, hplays, hclosed⟩ := h.pods i hk.lt
  obtain rfl := hplays.holds.eq hk
  refine h.of_acts ha (Shared.leaves_of_spares hsp) hp (hplays.fits.of_settings hs)
    (fun ho => ?_) (hc ▸ hclosed) (fun _ _ => Iff.rfl) ?_ fun channel => ?_
  · exact Shared.admits_of_spares hsp (hplays.admits (hc ▸ ho))
  · rw [hsp.store, h.contents]
  · rw [hsp.bus.topic, h.topic]

theorem topic_told (s : Shared Unit) (p : Profile V) (w : Write V) (channel : String) :
    (s.told p w).bus.topic channel = (s.bus.topic channel).sendAll s.bus.capacity
      (Account.bound channel [(p.channel, w.payload p)]) := by
  rw [Account.bound_singleton]
  exact Bus.topic_serve s.bus (.publishRaw p.channel (w.payload p)) channel

theorem Reflects.write (h : c.Reflects profiles capacity a) (hi : i < c.members.size)
    (w : Write V) : Follows profiles capacity c a (.move (.write i w)) := by
  obtain ⟨p, k, hp, hk, hclosed⟩ := h.pods i hi
  obtain ⟨hr, k', ha, hs, hc, hw⟩ := acts_write hk w
  have hreply : a.reply profiles (.write i w) =
      if k.closed then .error .closed else w.verdict p.codec := by
    rw [Account.reply, hp]
    exact if_congr hclosed.symm rfl rfl
  rw [← hreply] at hr hw
  refine ⟨?_, hr, ha.size⟩
  show (c.after (.write i w)).Reflects profiles capacity (a.call profiles (.write i w))
  cases hgiven : a.reply profiles (.write i w) with
  | error e =>
    rw [hgiven] at hw
    rw [Account.call_write_of_error hgiven]
    exact h.of_spares hk.holds ha hs hc (hw ▸ .refl i c.shared)
  | ok _ =>
    rw [hgiven] at hw
    dsimp only at hw
    refine h.of_acts ha (hw ▸ Shared.leaves_told i c.shared p w) hp (hk.fits.of_settings hs)
      (fun ho => ?_) (hc ▸ hclosed) (fun _ _ => Iff.rfl) ?_ fun channel => ?_
    · rw [hw]
      exact Shared.admits_told (hk.admits (hc ▸ ho)) p w
    · rw [hw, Account.call, hgiven]
      dsimp only [Call.onStore, Shared.told]
      rw [hp, h.contents]
      rfl
    · rw [hw, topic_told, h.topic, h.capacity_eq, ← Topic.sendAll_append, Account.sentOn_call,
        hgiven]
      dsimp only [Call.sends]
      rw [hp]
      rfl

theorem Reflects.close (h : c.Reflects profiles capacity a) (hi : i < c.members.size) :
    Follows profiles capacity c a (.close i) := by
  obtain ⟨p, k, hp, hk, hclosed⟩ := h.pods i hi
  obtain ⟨hr, k', ha, hs, hc, hw⟩ := acts_close hk
  refine ⟨?_, hr, ha.size⟩
  have hleaves : Shared.Leaves i c.shared k'.world := by
    rw [hw]
    split_ifs
    · exact .refl i c.shared
    · exact Shared.leaves_abandoned i c.shared
  -- whether the pod was open or not, nothing is written or sent
  have hkept : k'.world.store.contents = c.shared.store.contents ∧
      k'.world.bus.topics = c.shared.bus.topics := by
    rw [hw]
    split_ifs <;> exact ⟨rfl, rfl⟩
  refine h.of_acts ha hleaves hp (hk.fits.of_settings hs) (fun ho => ?_) ?_ (fun j hj => ?_) ?_
    fun channel => ?_
  · rw [hc] at ho
    cases ho
  · rw [hc]
    exact ⟨fun _ => List.mem_cons_self, fun _ => rfl⟩
  · exact List.mem_cons.trans (or_iff_right hj)
  · exact hkept.1.trans h.contents
  · have hsent : (a.call profiles (.close i)).sentOn channel = a.sentOn channel :=
      (a.sentOn_call _ channel).trans (List.append_nil _)
    rw [Bus.topic, hkept.2]
    exact (h.topic channel).trans (congrArg _ hsent.symm)

theorem Reflects.build (h : c.Reflects profiles capacity a) {chance : Chance} {b : Builder V}
    (hc : c.Can (.build chance b)) (hp : profiles[c.members.size]? = some b.profile) :
    Follows profiles capacity c a (.move (.build chance b)) := by
  obtain ⟨hbuilt, hothers, localCache, -, hhas⟩ := has_build rfl hc h.synchronizers
  have hsize : (c.after (.build chance b)).members.size = c.members.size + 1 := hbuilt
  have hworld : (c.after (.build chance b)).shared = c.shared.welcome b.channel b.instanceId :=
    hhas.world.symm
  have htouches := Bus.touches_subscribe_attach c.shared.bus b.channel b.instanceId
  refine ⟨?_, rfl, hsize⟩
  -- nothing is called, so the account is as before
  show (c.after (.build chance b)).Reflects profiles capacity a
  refine ⟨?_, ?_, ?_, ?_, ?_, fun j hj => ?_, fun j hj => ?_⟩
  · rw [hworld, Shared.size_closed_welcome, h.handles, hsize]
  · rw [hworld, Shared.size_synchronizers_welcome, h.synchronizers, hsize]
  · rw [hworld]
    exact htouches.capacity.trans h.capacity_eq
  · rw [hworld]
    exact h.contents
  · intro channel
    rw [hworld]
    exact (htouches.topic channel).trans (h.topic channel)
  · exact (h.closed_lt j hj).trans (by omega)
  · by_cases hn : j = c.members.size
    · subst hn
      have hserves := Shared.serves_welcome c.shared b.channel b.instanceId
        (by rw [h.handles, h.synchronizers])
      rw [h.synchronizers] at hserves
      refine ⟨b.profile, _, hp, ⟨hhas.holds, ⟨rfl, rfl, rfl⟩, fun _ => ?_⟩, ?_⟩
      · rw [hworld]
        exact hserves.admits
      · exact ⟨fun ho => absurd ho Bool.false_ne_true,
          fun hm => absurd (h.closed_lt _ hm) (lt_irrefl _)⟩
    · have hlt : j < c.members.size := by omega
      obtain ⟨p, k, hq, hk, hclosed⟩ := h.pods j hlt
      have hadmits : c.shared.Admits j p.channel →
          (c.after (.build chance b)).shared.Admits j p.channel :=
        hworld ▸ Shared.admits_welcome c.shared
      exact ⟨p, _, hq, hk.of_eq (hothers j hn) hadmits, hclosed⟩

/-- A local move, or an event that is handed to a pod, makes no call. -/
theorem Reflects.local_move (h : c.Reflects profiles capacity a) {m : Move V} (hm : c.Can m)
    (hl : m.IsLocal) : Follows profiles capacity c a (.move m) := by
  have hlt : c.mover m < c.members.size :=
    mover_lt hm fun chance b hb => by rw [hb] at hl; exact hl
  obtain ⟨p, k, -, hk, -⟩ := h.pods _ hlt
  obtain ⟨k', ha, hset, hclosed, hsp⟩ := acts_after hk.holds rfl hl
  have hnext := h.of_spares hk.holds ha hset hclosed hsp
  cases m with
  | build | write => exact hl.elim
  | get | deliver | maintain => exact ⟨hnext, rfl, ha.size⟩

theorem Reflects.hear (h : c.Reflects profiles capacity a) (hi : i < c.members.size) (e : Event) :
    Follows profiles capacity c a (.hear i e) := by
  obtain ⟨p, k, -, hk, -⟩ := h.pods i hi
  obtain ⟨k', hkeeps, ha⟩ := acts_handleEvent hk.holds e
  refine ⟨h.of_spares hk.holds ha hkeeps.settings hkeeps.closed ?_, rfl, ha.size⟩
  rw [hkeeps.world, hk.holds.world]
  exact .refl i c.shared

theorem Reflects.follows (h : c.Reflects profiles capacity a) (hs : c.CanStep s)
    (hp : ∀ p, s.profile? = some p → profiles[c.members.size]? = some p) :
    Follows profiles capacity c a s := by
  cases s with
  | close i => exact h.close hs
  | hear i e => exact h.hear hs e
  | move m =>
    cases m with
    | build chance b => exact h.build hs (hp b.profile rfl)
    | write i w => exact h.write hs w
    | get | deliver | maintain => exact h.local_move hs trivial

theorem Reflects.length_retained_le (h : c.Reflects profiles capacity a) (channel : String) :
    (c.shared.bus.topic channel).retained.length ≤ capacity := by
  rw [h.topic, Topic.length_retained_sendAll (Nat.zero_le capacity)]
  exact min_le_left _ _

/-- A step sends at most one payload on a channel, which no topic is too small for. -/
theorem Follows.sentOn_eq (hf : Follows profiles capacity c a s)
    (h : c.Reflects profiles capacity a) (hc : 0 < capacity) (channel : String) :
    (s.call?.elim a (a.call profiles)).sentOn channel =
      a.sentOn channel ++ c.sent channel s := by
  obtain ⟨new, hnew, hlen⟩ : ∃ new, (s.call?.elim a (a.call profiles)).sentOn channel =
      a.sentOn channel ++ new ∧ new.length ≤ 1 := by
    cases s.call? with
    | none => exact ⟨[], (List.append_nil _).symm, Nat.zero_le 1⟩
    | some call =>
      exact ⟨_, a.sentOn_call call channel, Account.length_bound_sends_le channel call _⟩
  have htopic : (c.next s).shared.bus.topic channel =
      (c.shared.bus.topic channel).sendAll capacity new := by
    rw [hf.reflects.topic, hnew, Topic.sendAll_append, ← h.topic]
  have hnone : (c.shared.bus.topic channel).since (c.shared.bus.topic channel).sent = [] := by
    rw [Topic.since, Nat.sub_self]
    rfl
  rw [hnew, sent, htopic, Topic.since_sendAll le_rfl (h.length_retained_le channel), hnone,
    List.nil_append, rtake_of_length_le (by omega)]

/-! ## Runs -/

theorem isPrefix_drop_of_cons {s : Step V} {steps : List (Step V)} {n : Nat}
    (hp : (s :: steps).filterMap Step.profile? <+: profiles.drop n) :
    (∀ p, s.profile? = some p → profiles[n]? = some p) ∧
      steps.filterMap Step.profile? <+: profiles.drop (n + s.profile?.toList.length) := by
  cases hs : s.profile? with
  | none =>
    rw [List.filterMap_cons_none hs] at hp
    exact ⟨nofun, hp⟩
  | some p =>
    rw [List.filterMap_cons_some hs] at hp
    obtain ⟨rest, hrest⟩ := hp
    rw [List.cons_append] at hrest
    refine ⟨fun q hq => ?_, rest, ?_⟩
    · obtain rfl := Option.some.inj hq
      rw [← Nat.add_zero n, ← List.getElem?_drop, ← hrest]
      rfl
    · rw [Option.toList_some, List.length_singleton, ← List.drop_drop, ← hrest]
      rfl

theorem foldl_call_cons (a : Account) (s : Step V) (steps : List (Step V)) :
    ((s :: steps).filterMap Step.call?).foldl (Account.call profiles) a =
      (steps.filterMap Step.call?).foldl (Account.call profiles)
        (s.call?.elim a (a.call profiles)) := by
  cases hs : s.call? with
  | none => rw [List.filterMap_cons_none hs]; rfl
  | some call => rw [List.filterMap_cons_some hs]; rfl

theorem replies_cons (a : Account) (s : Step V) (steps : List (Step V)) :
    a.replies profiles ((s :: steps).filterMap Step.call?) =
      (s.call?.map (a.reply profiles)).toList ++
        (s.call?.elim a (a.call profiles)).replies profiles (steps.filterMap Step.call?) := by
  cases hs : s.call? with
  | none => rw [List.filterMap_cons_none hs]; rfl
  | some call => rw [List.filterMap_cons_some hs]; rfl

/-- A run does what the account says of the calls that are made in it. -/
theorem Reflects.through (h : c.Reflects profiles capacity a) (hc : 0 < capacity)
    {early late : List (Step V)} (hs : c.CanAll early)
    (hp : (early ++ late).filterMap Step.profile? <+: profiles.drop c.members.size) :
    let calls := early.filterMap Step.call?
    let a' := calls.foldl (Account.call profiles) a
    (c.through early).Reflects profiles capacity a' ∧
      late.filterMap Step.profile? <+: profiles.drop (c.through early).members.size ∧
      c.replies early = a.replies profiles calls ∧
      ∀ channel, a'.sentOn channel = a.sentOn channel ++ c.sentAll channel early := by
  induction early generalizing c a with
  | nil => exact ⟨h, hp, rfl, fun channel => (List.append_nil _).symm⟩
  | cons s early ih =>
    obtain ⟨hfirst, hrest⟩ := isPrefix_drop_of_cons hp
    have hf := h.follows hs.1 hfirst
    rw [← hf.size] at hrest
    -- the rest of the run goes on from the account after the step
    obtain ⟨hend, hleft, hreplies, hsent⟩ := ih hf.reflects hs.2 hrest
    dsimp only
    rw [foldl_call_cons, replies_cons, ← hf.reply, ← hreplies]
    refine ⟨hend, hleft, rfl, fun channel => ?_⟩
    rw [hsent, hf.sentOn_eq h hc, List.append_assoc]
    rfl

/-- A cluster that starts without pods has what the account of the calls says. -/
theorem reflects_through_start {contents : TreeMap String Bytes} {n : Nat}
    {steps : List (Step V)} (hs : (start contents n : Cluster V).CanAll steps) :
    let profiles := steps.filterMap Step.profile?
    let calls := steps.filterMap Step.call?
    let a := calls.foldl (Account.call profiles) { contents }
    ((start contents n).through steps).Reflects profiles (leastPowerOfTwo (max 1 n)) a ∧
      (start contents n).replies steps = Account.replies profiles { contents } calls ∧
      ∀ channel, (start contents n).sentAll channel steps = a.sentOn channel := by
  have hpos := leastPowerOfTwo_pos (max 1 n)
  have hp : (steps ++ []).filterMap Step.profile? <+: (steps.filterMap Step.profile?).drop 0 := by
    rw [List.append_nil]
    exact List.prefix_rfl
  obtain ⟨hr, -, hreplies, hsent⟩ := (reflects_start _ contents n).through hpos hs hp
  exact ⟨hr, hreplies, fun channel => (hsent channel).symm⟩

/-- In the middle of a run, a step does what an account says. -/
theorem follows_through_start {contents : TreeMap String Bytes} {n : Nat}
    {early late : List (Step V)}
    (hs : (start contents n : Cluster V).CanAll (early ++ s :: late)) :
    ∃ a, ((start contents n).through early).Reflects ((early ++ s :: late).filterMap Step.profile?)
        (leastPowerOfTwo (max 1 n)) a ∧
      Follows ((early ++ s :: late).filterMap Step.profile?) (leastPowerOfTwo (max 1 n))
        ((start contents n).through early) a s := by
  obtain ⟨hearly, hstep, -⟩ := canAll_append.1 hs
  have hpos := leastPowerOfTwo_pos (max 1 n)
  obtain ⟨hr, hleft, -⟩ :=
    (reflects_start _ contents n).through hpos hearly List.prefix_rfl
  exact ⟨_, hr, hr.follows hstep (isPrefix_drop_of_cons hleft).1⟩

/-- Two runs in which the same calls are made of pods of the same profiles have the same outcome:
the calls give the same, the store ends up with the same values and the same payloads are sent on
every channel, whatever the pods look up, hear and are configured with else.  The stored values are
those of the writes that succeeded; no other step touches the store or sends anything, and a pod
that does not write through never puts anything into the store. -/
theorem outcome_of_same_calls {contents : TreeMap String Bytes} {n₁ n₂ : Nat}
    {steps₁ steps₂ : List (Step V)} (h₁ : (start contents n₁ : Cluster V).CanAll steps₁)
    (h₂ : (start contents n₂ : Cluster V).CanAll steps₂)
    (hp : steps₁.filterMap Step.profile? = steps₂.filterMap Step.profile?)
    (hc : steps₁.filterMap Step.call? = steps₂.filterMap Step.call?) :
    let c₁ : Cluster V := start contents n₁
    let c₂ : Cluster V := start contents n₂
    let profiles := steps₁.filterMap Step.profile?
    let calls := steps₁.filterMap Step.call?
    (c₁.replies steps₁ = c₂.replies steps₂ ∧
      (c₁.through steps₁).shared.store.contents = (c₂.through steps₂).shared.store.contents ∧
      ∀ channel, c₁.sentAll channel steps₁ = c₂.sentAll channel steps₂) ∧
    ((c₁.replies steps₁).length = calls.length ∧
      (c₁.through steps₁).shared.store.contents =
        (calls.zip (c₁.replies steps₁)).foldl (Call.onStore profiles) contents ∧
      ∀ channel, (c₁.through steps₁).shared.bus.topic channel =
        ({} : Topic).sendAll c₁.shared.bus.capacity (c₁.sentAll channel steps₁)) ∧
    ∀ early s late, steps₁ = early ++ s :: late →
      let c := c₁.through early
      (s.call? = none → (c.next s).shared.store.contents = c.shared.store.contents ∧
        ∀ channel, (c.next s).shared.bus.topic channel = c.shared.bus.topic channel) ∧
      ∀ call p, s.call? = some call → profiles[call.pod]? = some p → p.writeThrough = false →
        ∀ (key : String) (bytes : Bytes), (c.next s).shared.store.contents[key]? = some bytes →
          c.shared.store.contents[key]? = some bytes := by
  obtain ⟨hr₁, hreplies₁, hsent₁⟩ := reflects_through_start h₁
  obtain ⟨hr₂, hreplies₂, hsent₂⟩ := reflects_through_start h₂
  rw [← hp, ← hc] at hr₂ hreplies₂ hsent₂
  intro c₁ c₂ profiles calls
  refine ⟨⟨hreplies₁.trans hreplies₂.symm, hr₁.contents.trans hr₂.contents.symm,
    fun channel => (hsent₁ channel).trans (hsent₂ channel).symm⟩, ⟨?_, ?_, fun channel => ?_⟩, ?_⟩
  · rw [hreplies₁, Account.length_replies]
  · rw [hr₁.contents, hreplies₁, Account.contents_foldl_call]
  · rw [hr₁.topic, hsent₁]
    rfl
  · rintro early s late hsplit c
    subst hsplit
    obtain ⟨a, hr, hf⟩ := follows_through_start h₁
    refine ⟨fun hcall => ?_, fun call p hcall hprofile hthrough key bytes hb => ?_⟩
    · have hnext := hf.reflects
      rw [hcall] at hnext
      exact ⟨hnext.contents.trans hr.contents.symm, fun channel =>
        (hnext.topic channel).trans (hr.topic channel).symm⟩
    · rw [hf.reflects.contents, hcall] at hb
      rw [hr.contents]
      exact Call.getElem?_onStore hprofile hthrough hb

/-- A pod that writes through and one that does not set the same key, and the first one clears the
store when it has been closed already. -/
def quietRun : List (Step Bool) :=
  [.move (.build Chance.standard (boolBuilder "a")),
    .move (.build Chance.standard { boolBuilder "b" with writeThrough := false }),
    .move (.write 0 (.set .value "k" true)), .move (.write 1 (.set .invalidation "k" false)),
    .close 0, .move (.write 0 .clear)]

/-- The same calls, of pods that are configured otherwise, look keys up and hear of each other. -/
def busyRun : List (Step Bool) :=
  [.move (.build Chance.standard
      { boolBuilder "a" with factory := some (LocalCache.new Chance.standard .random {}) }),
    .move (.build Chance.standard
      { boolBuilder "b" with
        writeThrough := false, transform := some fun _ _ => none,
        weigher := some fun _ _ => 2 }),
    .move (.get 0 "k"), .move (.write 0 (.set .value "k" true)), .move (.deliver 1 1),
    .move (.get 1 "k"), .move (.write 1 (.set .invalidation "k" false)), .move (.deliver 0 2),
    .hear 1 (.set "k" "c" [0]), .move (.maintain 0), .close 0, .move (.write 0 .clear),
    .hear 0 (.clear "c")]

theorem outcome_of_same_calls_of_busy_pods :
    (start ∅ 1 : Cluster Bool).CanAll quietRun ∧ (start ∅ 4 : Cluster Bool).CanAll busyRun ∧
      (start ∅ 4).replies busyRun = [.ok (), .ok (), .ok (), .error .closed] ∧
      ((start ∅ 4).through busyRun).shared.store.contents =
        ((start ∅ 1).through quietRun).shared.store.contents ∧
      ((start ∅ 4).sentAll defaultChannel busyRun).length = 2 ∧
      ∀ channel, (start ∅ 4).sentAll channel busyRun = (start ∅ 1).sentAll channel quietRun := by
  have hquiet : (start ∅ 1 : Cluster Bool).CanAll quietRun := by decide +kernel
  have hbusy : (start ∅ 4 : Cluster Bool).CanAll busyRun := by decide +kernel
  have hreplies : (start ∅ 1).replies quietRun = [.ok (), .ok (), .ok (), .error .closed] := by
    decide +kernel
  have hsent : ((start ∅ 1).sentAll defaultChannel quietRun).length = 2 := by decide +kernel
  obtain ⟨⟨hr, hc, hs⟩, -⟩ := outcome_of_same_calls hbusy hquiet rfl rfl
  exact ⟨hquiet, hbusy, hr.trans hreplies, hc, (congrArg List.length (hs _)).trans hsent, hs⟩

end Cluster

end PodCache
