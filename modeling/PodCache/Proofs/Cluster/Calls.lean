import PodCache.Proofs.Cluster.Run

/-!
# Calls

The calls of a cluster's pods are its writes and closings.  What they give, and what they do to the
store and the bus, is decided by the stored values and the profiles of the pods.  An `Account` of
calls computes it, and no local cache and no delivery comes into it; pods that write or close do as
it says (`acts_write`, `acts_close`).
-/

namespace PodCache

open Std (TreeMap)

variable {V ω : Type}

/-- What decides, together with the store, what the calls of a pod come to. -/
structure Profile (V : Type) where
  instanceId : String
  channel : String
  codec : Codec V
  writeThrough : Bool

/-- The profile of the pods that a builder makes. -/
def Builder.profile (b : Builder V) : Profile V where
  instanceId := b.instanceId
  channel := b.channel
  codec := b.codec
  writeThrough := b.writeThrough

/-- A core has the profile of a pod, as far as it shows. -/
structure Core.Fits (k : Core V ω) (p : Profile V) : Prop where
  instanceId : k.settings.instanceId = p.instanceId
  codec : k.settings.codec = p.codec
  writeThrough : k.settings.writeThrough = p.writeThrough

theorem Core.Fits.of_settings {k k' : Core V ω} {p : Profile V} (h : k.Fits p)
    (hs : k'.settings = k.settings) : k'.Fits p :=
  ⟨by rw [hs, h.instanceId], by rw [hs, h.codec], by rw [hs, h.writeThrough]⟩

/-- What a successful write of a pod makes of the stored values. -/
def Write.landed (p : Profile V) (contents : TreeMap String Bytes) (w : Write V) :
    TreeMap String Bytes :=
  if w.ReachesStore p.writeThrough then w.onStore p.codec contents else contents

/-- The payload that a successful write of a pod sends. -/
def Write.payload (p : Profile V) (w : Write V) : Bytes := (w.event p.codec p.instanceId).encode

/-- The stored values that a write of a pod that does not write through leaves were there before. -/
theorem Write.getElem?_landed {p : Profile V} (hp : p.writeThrough = false)
    {contents : TreeMap String Bytes} {w : Write V} {key : String} {bytes : Bytes}
    (h : (w.landed p contents)[key]? = some bytes) : contents[key]? = some bytes := by
  rw [landed] at h
  split_ifs at h with hr
  · cases w with
    | set announcement key' value =>
      have ht : p.writeThrough = true := hr
      rw [hp] at ht
      cases ht
    | delete key' =>
      have he : (contents.erase key')[key]? = some bytes := h
      rw [TreeMap.getElem?_erase] at he
      split_ifs at he
      exact he
    | clear =>
      have he : (∅ : TreeMap String Bytes)[key]? = some bytes := h
      rw [TreeMap.getElem?_emptyc] at he
      cases he
  · exact h

/-! ## Accounts -/

/-- A write or a closing. -/
inductive Call (V : Type) where
  | write (i : Nat) (w : Write V)
  | close (i : Nat)

namespace Call

def pod : Call V → Nat
  | .write i _ | .close i => i

/-- What a call makes of the stored values, given its reply: a write does something if it has
succeeded. -/
def onStore (profiles : List (Profile V)) (contents : TreeMap String Bytes) :
    Call V × Except Error Unit → TreeMap String Bytes
  | (.write i w, .ok ()) => (profiles[i]?).elim contents fun p => w.landed p contents
  | (.write _ _, .error _) | (.close _, _) => contents

/-- A call of a pod that does not write through puts nothing into the store. -/
theorem getElem?_onStore {profiles : List (Profile V)} {contents : TreeMap String Bytes}
    {call : Call V} {reply : Except Error Unit} {p : Profile V} {key : String} {bytes : Bytes}
    (hp : profiles[call.pod]? = some p) (hw : p.writeThrough = false)
    (h : (onStore profiles contents (call, reply))[key]? = some bytes) :
    contents[key]? = some bytes := by
  cases call with
  | close i => exact h
  | write i w =>
    cases reply with
    | error e => exact h
    | ok _ =>
      have hi : profiles[i]? = some p := hp
      rw [onStore, hi] at h
      exact Write.getElem?_landed hw h

/-- The payloads that a call sends, given its reply, with their channels. -/
def sends (profiles : List (Profile V)) : Call V × Except Error Unit → List (String × Bytes)
  | (.write i w, .ok ()) => (profiles[i]?).toList.map fun p => (p.channel, w.payload p)
  | (.write _ _, .error _) | (.close _, _) => []

def closing (closed : List Nat) : Call V → List Nat
  | .write _ _ => closed
  | .close i => i :: closed

end Call

/-- What calls have come to. -/
structure Account where
  contents : TreeMap String Bytes
  closed : List Nat := []
  /-- The payloads that were sent, with their channels. -/
  sent : List (String × Bytes) := []

namespace Account

variable {profiles : List (Profile V)}

def reply (profiles : List (Profile V)) (a : Account) : Call V → Except Error Unit
  | .write i w =>
    if i ∈ a.closed then .error .closed
    else (profiles[i]?).elim (.error .closed) fun p => w.verdict p.codec
  | .close _ => .ok ()

def call (profiles : List (Profile V)) (a : Account) (call : Call V) : Account where
  contents := Call.onStore profiles a.contents (call, a.reply profiles call)
  closed := call.closing a.closed
  sent := a.sent ++ Call.sends profiles (call, a.reply profiles call)

def replies (profiles : List (Profile V)) (a : Account) : List (Call V) → List (Except Error Unit)
  | [] => []
  | call :: calls => a.reply profiles call :: (a.call profiles call).replies profiles calls

/-- The payloads among several that go to a channel. -/
def bound (channel : String) (sent : List (String × Bytes)) : List Bytes :=
  sent.filterMap fun m => if m.1 = channel then some m.2 else none

def sentOn (a : Account) (channel : String) : List Bytes := bound channel a.sent

theorem sentOn_call (a : Account) (c : Call V) (channel : String) :
    (a.call profiles c).sentOn channel =
      a.sentOn channel ++ bound channel (Call.sends profiles (c, a.reply profiles c)) :=
  List.filterMap_append

theorem bound_singleton (channel channel' : String) (payload : Bytes) :
    bound channel [(channel', payload)] = if channel' = channel then [payload] else [] := by
  rw [bound, List.filterMap_cons]
  split_ifs <;> rfl

theorem length_bound_sends_le (channel : String) (c : Call V) (reply : Except Error Unit) :
    (bound channel (Call.sends profiles (c, reply))).length ≤ 1 := by
  refine (List.length_filterMap_le _ _).trans ?_
  cases c with
  | close i => exact Nat.zero_le 1
  | write i w =>
    cases reply with
    | error e => exact Nat.zero_le 1
    | ok _ =>
      rw [Call.sends, List.length_map]
      cases profiles[i]? <;> simp

/-- A write that fails changes nothing. -/
theorem call_write_of_error {a : Account} {i : Nat} {w : Write V} {e : Error}
    (h : a.reply profiles (.write i w) = .error e) : a.call profiles (.write i w) = a := by
  rw [call, h]
  simp [Call.onStore, Call.closing, Call.sends]

/-- The stored values are those of the successful writes, in the order of the calls. -/
theorem contents_foldl_call (a : Account) (calls : List (Call V)) :
    (calls.foldl (call profiles) a).contents =
      (calls.zip (a.replies profiles calls)).foldl (Call.onStore profiles) a.contents := by
  induction calls generalizing a with
  | nil => rfl
  | cons c calls ih => exact ih (a.call profiles c)

theorem length_replies (a : Account) (calls : List (Call V)) :
    (a.replies profiles calls).length = calls.length := by
  induction calls generalizing a with
  | nil => rfl
  | cons c calls ih => exact congrArg (· + 1) (ih (a.call profiles c))

end Account

/-! ## The services of a pod -/

namespace Shared

/-- An open pod has an open handle, and an open synchronizer on its channel. -/
structure Admits (s : Shared Unit) (i : Nat) (channel : String) : Prop where
  handle : s.store.isOpen (i + 1) = true
  synchronizer : ∃ sync, s.bus.synchronizers[i]? = some sync ∧ sync.channel = channel ∧
    sync.closed = false

/-- The services once a write of a pod has succeeded. -/
def told (s : Shared Unit) (p : Profile V) (w : Write V) : Shared Unit where
  store := { s.store with contents := w.landed p s.store.contents }
  bus := (s.bus.publishRaw p.channel (w.payload p)).2

/-- The services once a pod has closed its synchronizer and its handle. -/
def abandoned (s : Shared Unit) (i : Nat) : Shared Unit where
  store := s.store.close (i + 1)
  bus := s.bus.close i

/-- The other pods have what they had, and no pod has come or gone. -/
structure Leaves (i : Nat) (s s' : Shared Unit) : Prop where
  handles : s'.store.closed.size = s.store.closed.size
  synchronizers : s'.bus.synchronizers.size = s.bus.synchronizers.size
  capacity : s'.bus.capacity = s.bus.capacity
  admits : ∀ j channel, j ≠ i → s.Admits j channel → s'.Admits j channel

variable {s s' : Shared Unit} {i : Nat} {channel : String}

theorem Leaves.refl (i : Nat) (s : Shared Unit) : Leaves i s s :=
  ⟨rfl, rfl, rfl, fun _ _ _ h => h⟩

theorem admits_told (h : s.Admits i channel) (p : Profile V) (w : Write V) :
    (s.told p w).Admits i channel := ⟨h.handle, h.synchronizer⟩

theorem leaves_told (i : Nat) (s : Shared Unit) (p : Profile V) (w : Write V) :
    Leaves i s (s.told p w) :=
  ⟨rfl, rfl, rfl, fun _ _ _ h => admits_told h p w⟩

theorem leaves_abandoned (i : Nat) (s : Shared Unit) : Leaves i s (s.abandoned i) := by
  refine ⟨Array.size_setIfInBounds, Array.size_modify, rfl, fun j channel hj h => ⟨?_, ?_⟩⟩
  · show ((s.store.closed.setIfInBounds (i + 1) true)[j + 1]? == some false) = true
    rw [Array.getElem?_setIfInBounds_ne (by omega)]
    exact h.handle
  · obtain ⟨sync, hs, hrest⟩ := h.synchronizer
    exact ⟨sync, ((Bus.touches_modify s.bus i _).others j hj).trans hs, hrest⟩

theorem admits_of_spares (h : Cluster.Spares i s s') {j : Nat} (ha : s.Admits j channel) :
    s'.Admits j channel := by
  obtain ⟨sync, hs, hc, ho⟩ := ha.synchronizer
  obtain ⟨sync', hs', hc', ho'⟩ := h.retains j sync hs
  exact ⟨by rw [h.store]; exact ha.handle, sync', hs', hc'.trans hc, ho'.trans ho⟩

theorem leaves_of_spares (h : Cluster.Spares i s s') : Leaves i s s' :=
  ⟨by rw [h.store], h.size, h.bus.capacity, fun _ _ _ ha => admits_of_spares h ha⟩

/-- A new pod is admitted, as are those that were there before. -/
theorem admits_welcome (s : Shared Unit) {channel' name : String} {j : Nat}
    (h : s.Admits j channel) : (s.welcome channel' name).Admits j channel := by
  obtain ⟨sync, hs, hrest⟩ := h.synchronizer
  have hj : j ≠ s.bus.synchronizers.size := by
    have := (Array.getElem?_eq_some_iff.1 hs).1
    omega
  refine ⟨?_, sync, ((Bus.touches_subscribe_attach s.bus channel' name).others j hj).trans hs,
    hrest⟩
  show ((s.store.closed.push false)[j + 1]? == some false) = true
  rw [Array.getElem?_push]
  split_ifs
  · rfl
  · exact h.handle

theorem Serves.admits {name : String} (h : s.Serves i channel name) : s.Admits i channel := by
  obtain ⟨position, hl⟩ := h.listens
  exact ⟨h.handle, _, hl.synchronizer, rfl, rfl⟩

end Shared

/-! ## Writes and closings -/

namespace Cluster

variable {c : Cluster V} {p : Profile V} {i : Nat} {k : Core V (Shared Unit)}

/-- A pod of a profile, which has what it needs unless it is closed. -/
structure Plays (c : Cluster V) (p : Profile V) (i : Nat) (k : Core V (Shared Unit)) : Prop where
  holds : c.Holds i k
  fits : k.Fits p
  admits : k.closed = false → c.shared.Admits i p.channel

/-- A pod that does not act goes on to play its part, as long as it has what it needs. -/
theorem Plays.of_eq {c' : Cluster V} (h : c.Plays p i k) (hm : c'.members[i]? = c.members[i]?)
    (ha : c.shared.Admits i p.channel → c'.shared.Admits i p.channel) :
    c'.Plays p i { k with world := c'.shared } :=
  ⟨h.holds.of_eq hm, h.fits.of_settings rfl, fun ho => ha (h.admits ho)⟩

/-- A write of an open pod that succeeds. -/
theorem gives_perform_of_ok (w : Write V) (hk : k.closed = false) (hf : k.Fits p)
    (ha : k.world.Admits i p.channel) (hv : w.verdict p.codec = .ok ()) :
    ∃ k', Pod.Gives (w.perform (services i Faults.none)) k (.ok ()) k' ∧
      k'.settings = k.settings ∧ k'.closed = k.closed ∧ k'.world = k.world.told p w := by
  obtain ⟨instanceId, channel, codec, writeThrough⟩ := p
  obtain ⟨rfl, rfl, rfl⟩ := hf
  obtain ⟨hopen, sync, hs, rfl, hc⟩ := ha
  have hk' := w.keeps_onCore k
  -- the event is sent whether the store has been written or not
  by_cases hr : w.ReachesStore k.settings.writeThrough
  · have hreq := w.services_request k.settings.codec hopen
    rw [← hk'.world] at hreq
    have hanswer : (w.onCore k).answer (services i Faults.none) (w.request k.settings.codec) =
        .ok [] := by
      rw [answer_services, hreq]
    have hg := w.gives_perform hk hr hv hanswer
    rw [asked_services, asked_services, hreq] at hg
    dsimp only at hg
    rw [hk'.world, Shared.services_publish hs hc] at hg
    refine ⟨_, hg, hk'.settings, hk'.closed, ?_⟩
    dsimp only
    rw [Shared.told, Write.landed, if_pos hr]
    rfl
  · have hg : Pod.Gives (w.perform (services i Faults.none)) k (.ok ()) _ :=
      Write.gives_perform_of_unstored hk hr hv
    rw [asked_services, hk'.world, Shared.services_publish hs hc] at hg
    refine ⟨_, hg, hk'.settings, hk'.closed, ?_⟩
    dsimp only
    rw [Shared.told, Write.landed, if_neg hr]
    rfl

/-- A pod that writes leaves what its profile and the stored values say, whatever it has in its
local cache. -/
theorem acts_write (h : c.Plays p i k) (w : Write V) :
    let reply := if k.closed then .error .closed else w.verdict p.codec
    let done := c.act i fun services => w.perform services
    done.1.map Prod.fst = some reply ∧
      ∃ k', Acts i k' c done.2 ∧ k'.settings = k.settings ∧ k'.closed = k.closed ∧
        k'.world = match reply with
          | .ok () => c.shared.told p w
          | .error _ => c.shared := by
  cases hk : k.closed with
  | true =>
    have hg : Pod.Gives (w.perform (services i Faults.none)) k (.error .closed) k :=
      w.gives_perform_of_closed hk
    obtain ⟨hr, ha⟩ := acts_act h.holds (fun services => w.perform services) hg
    exact ⟨hr, k, ha, rfl, hk, h.holds.world⟩
  | false =>
    have hadmits : k.world.Admits i p.channel := h.holds.world ▸ h.admits hk
    rw [if_neg Bool.false_ne_true]
    cases hv : w.verdict p.codec with
    | ok _ =>
      obtain ⟨k', hg, hs, hc, hw⟩ := gives_perform_of_ok w hk h.fits hadmits hv
      obtain ⟨hr, ha⟩ := acts_act h.holds (fun services => w.perform services) hg
      exact ⟨hr, k', ha, hs, hc.trans hk, hw.trans (by rw [h.holds.world])⟩
    | error e =>
      have hk' := w.keeps_onCore k
      have hg : Pod.Gives (w.perform (services i Faults.none)) k (.error e) _ :=
        Write.gives_perform_of_unencodable hk (by rwa [h.fits.codec])
      obtain ⟨hr, ha⟩ := acts_act h.holds (fun services => w.perform services) hg
      exact ⟨hr, _, ha, hk'.settings, hk'.closed.trans hk, hk'.world.trans h.holds.world⟩

/-- A pod that is closed gives up its handle and its synchronizer, the first time. -/
theorem acts_close (h : c.Plays p i k) :
    (c.act i Pod.close).1.map Prod.fst = some (.ok ()) ∧
      ∃ k', Acts i k' c (c.act i Pod.close).2 ∧ k'.settings = k.settings ∧ k'.closed = true ∧
        k'.world = if k.closed then c.shared else c.shared.abandoned i := by
  cases hk : k.closed with
  | true =>
    obtain ⟨hr, ha⟩ := acts_act h.holds Pod.close (Pod.gives_close_of_closed hk)
    exact ⟨hr, k, ha, rfl, hk, h.holds.world⟩
  | false =>
    have hsync : ((services i Faults.none).wait .synchronizerClose k.world).1 = .ok [] := rfl
    obtain ⟨hr, ha⟩ := acts_act h.holds Pod.close (Pod.gives_close hk hsync rfl)
    exact ⟨hr, _, ha, rfl, rfl, congrArg (Shared.abandoned · i) h.holds.world⟩

end Cluster

end PodCache
