import PodCache.Proofs.Event.RoundTrip
import PodCache.Proofs.Pod.Hearing

/-!
# Writes

Sets, deletes and clears are the writes of a pod.  A write does the same thing to the local cache,
to the store and, by its event, to the local caches of peers: what `Write.onContents` does to a map.
-/

namespace PodCache

namespace Codec

variable {V : Type}

/-- Every value can be written, and reading gives it back. -/
def Faithful (codec : Codec V) : Prop :=
  ∀ value, ∃ bytes, codec.encode value = .ok bytes ∧ codec.decode bytes = .ok value

/-- What is written for a value. -/
def bytes (codec : Codec V) (value : V) : Bytes := (codec.encode value).toOption.getD []

variable {codec : Codec V}

theorem Faithful.encode (h : codec.Faithful) (value : V) :
    codec.encode value = .ok (codec.bytes value) := by
  obtain ⟨bytes, he, _⟩ := h value
  rw [Codec.bytes, he]
  rfl

theorem Faithful.decode (h : codec.Faithful) (value : V) :
    codec.decode (codec.bytes value) = .ok value := by
  obtain ⟨bytes, he, hd⟩ := h value
  rwa [Codec.bytes, he]

end Codec

/-- What a pod may be asked to write. -/
inductive Write (V : Type) where
  | set (announcement : Pod.Announcement) (key : String) (value : V)
  | delete (key : String)
  | clear

namespace Write

variable {V ω : Type}

/-- The operation of the pod. -/
def perform (services : Services ω) : Write V → Act V ω (Except Error Unit)
  | .set announcement key value => Pod.setAnd announcement services key value
  | .delete key => Pod.delete services key
  | .clear => Pod.clear services

/-- What a write does to a map. -/
def onContents (m : Contents V) : Write V → Contents V
  | .set _ key value => m.put key value
  | .delete key => m.erase key
  | .clear => .empty

/-- What a write does to the local cache. -/
def onCore (k : Core V ω) : Write V → Core V ω
  | .set _ key value => k.keep key value
  | .delete key => k.forget key
  | .clear => k.forgetAll

/-- The request to the store. -/
def request (codec : Codec V) : Write V → Request
  | .set _ key value => .storeSet key (codec.bytes value)
  | .delete key => .storeDelete key
  | .clear => .storeClear

/-- The event for the peers. -/
def event (codec : Codec V) (sender : String) : Write V → Event
  | .set announcement key value => announcement.event key sender (codec.bytes value)
  | .delete key => .delete key sender
  | .clear => .clear sender

/-- Whether a write goes to the store. -/
def ReachesStore (writeThrough : Bool) : Write V → Prop
  | .set .. => writeThrough = true
  | .delete _ | .clear => True

/-- What a write of an open pod gives, when the store takes what goes there. -/
def verdict (codec : Codec V) : Write V → Except Error Unit
  | .set _ _ value => (codec.encode value).map fun _ => ()
  | .delete _ | .clear => .ok ()

/-- A write whose event says what was written; a peer takes a value of no bytes for none. -/
def Audible (codec : Codec V) : Write V → Prop
  | .set .value _ value => codec.bytes value ≠ []
  | _ => True

variable {codec : Codec V} {w : Write V} {m m' : Contents V}

instance (writeThrough : Bool) (w : Write V) : Decidable (w.ReachesStore writeThrough) :=
  match w with
  | .set .. => inferInstanceAs (Decidable (writeThrough = true))
  | .delete _ | .clear => inferInstanceAs (Decidable True)

theorem reachesStore_of_eq_true {writeThrough : Bool} (h : writeThrough = true) (w : Write V) :
    w.ReachesStore writeThrough := by
  cases w with
  | set announcement key value => exact h
  | delete | clear => trivial

theorem verdict_of_faithful (hf : codec.Faithful) (w : Write V) : w.verdict codec = .ok () := by
  cases w with
  | set announcement key value => rw [verdict, hf.encode value]; rfl
  | delete | clear => rfl

theorem encode_of_verdict {announcement : Pod.Announcement} {key : String} {value : V}
    (h : (Write.set announcement key value).verdict codec = .ok ()) :
    codec.encode value = .ok (codec.bytes value) := by
  rw [verdict] at h
  rw [Codec.bytes]
  cases hv : codec.encode value with
  | ok bytes => rfl
  | error e =>
    rw [hv] at h
    cases h

/-! ## What writes give -/

section Gives

variable {services : Services ω} {k : Core V ω}

/-- A write that goes to a store that does what it is asked. -/
theorem gives_perform {taken : Bytes} (w : Write V) (hk : k.closed = false)
    (hw : w.ReachesStore k.settings.writeThrough) (hv : w.verdict k.settings.codec = .ok ())
    (hs : (w.onCore k).answer services (w.request k.settings.codec) = .ok taken) :
    Pod.Gives (w.perform services) k (.ok ())
      (((w.onCore k).asked services (w.request k.settings.codec)).asked services
        (.publish (w.event k.settings.codec k.settings.instanceId))) := by
  cases w with
  | set announcement key value =>
    exact Pod.gives_setAnd announcement hk hw (encode_of_verdict hv) hs
  | delete key => exact Pod.gives_delete hk hs
  | clear => exact Pod.gives_clear hk hs

/-- A write that does not go to the store is told to the peers alone. -/
theorem gives_perform_of_unstored (hk : k.closed = false)
    (hw : ¬ w.ReachesStore k.settings.writeThrough) (hv : w.verdict k.settings.codec = .ok ()) :
    Pod.Gives (w.perform services) k (.ok ())
      ((w.onCore k).asked services
        (.publish (w.event k.settings.codec k.settings.instanceId))) := by
  cases w with
  | set announcement key value =>
    exact Pod.gives_setAnd_of_unwritten announcement hk (Bool.eq_false_of_not_eq_true hw)
      (encode_of_verdict hv)
  | delete | clear => exact absurd trivial hw

theorem gives_perform_of_unencodable {e : Error} (hk : k.closed = false)
    (hv : w.verdict k.settings.codec = .error e) :
    Pod.Gives (w.perform services) k (.error e) (w.onCore k) := by
  cases w with
  | set announcement key value =>
    rw [verdict] at hv
    cases he : k.settings.codec.encode value with
    | error e' =>
      rw [he] at hv
      cases hv
      exact Pod.gives_setAnd_of_unencodable announcement hk he
    | ok bytes =>
      rw [he] at hv
      cases hv
  | delete | clear => cases hv

theorem gives_perform_of_closed (w : Write V) (hk : k.closed = true) :
    Pod.Gives (w.perform services) k (.error .closed) k := by
  cases w with
  | set announcement key value => exact Pod.gives_setAnd_of_closed announcement hk
  | delete key => exact Pod.gives_delete_of_closed hk
  | clear => exact Pod.gives_clear_of_closed hk

end Gives

/-! ## The local cache of the writer -/

theorem keeps_onCore (w : Write V) (k : Core V ω) : Core.Keeps k (w.onCore k) := by
  cases w <;> exact ⟨rfl, rfl, rfl⟩

theorem plain_onCore {k : Core V ω} (h : k.Plain) (w : Write V) : (w.onCore k).Plain := by
  cases w with
  | set announcement key value => exact h.keep key value
  | delete key => exact h.forget key
  | clear => exact h.forgetAll

theorem contents_onCore {k : Core V ω} (h : k.Plain) (w : Write V) :
    (w.onCore k).localCache.contents.Sub (w.onContents k.localCache.contents) := by
  cases w with
  | set announcement key value => exact h.contents_keep key value
  | delete key => exact .of_eq (k.contents_forget key)
  | clear => exact .of_eq k.contents_forgetAll

/-! ## The peers -/

theorem sub_onContents (h : m.Sub m') (w : Write V) : (w.onContents m).Sub (w.onContents m') := by
  cases w with
  | set announcement key value => exact h.put key value
  | delete key => exact h.erase key
  | clear => exact .refl _

theorem normal_event {sender : String} (h : w.Audible codec) :
    (w.event codec sender).normal = w.event codec sender := by
  cases w with
  | set announcement key value =>
    cases announcement with
    | value => exact Event.normal_set key sender h
    | invalidation => exact Event.normal_invalidate key sender
  | delete key => exact Event.normal_delete key sender
  | clear => exact Event.normal_clear sender

/-- Whoever hears of a write is no worse informed than before it. -/
theorem hear_event_sub (hf : codec.Faithful) (ha : w.Audible codec) (h : m.Sub m')
    (sender : String) : (m.hear codec (w.event codec sender)).Sub (w.onContents m') := by
  cases w with
  | set announcement key value =>
    cases announcement with
    | value =>
      have heard : m.hear codec (.set key sender (codec.bytes value)) = m.put key value :=
        m.hear_set ha (hf.decode value)
      exact (Contents.Sub.of_eq heard).trans (h.put key value)
    | invalidation =>
      exact (m.erase_sub_put key value).trans (h.put key value)
  | delete key => exact h.erase key
  | clear => exact .refl _

/-- Events that set nothing do no harm to a write that comes before them. -/
theorem hear_onContents_sub {e : Event} (he : e.action ≠ .set) (w : Write V) (m : Contents V) :
    ((w.onContents m).hear codec e).Sub (w.onContents (m.hear codec e)) := by
  unfold Contents.hear
  cases ha : e.action with
  | set => exact absurd ha he
  | invalidate | delete =>
    cases w with
    | set announcement key value => exact m.erase_put_sub key e.key value
    | delete key => exact .of_eq (m.erase_erase_comm key e.key)
    | clear => exact Contents.erase_sub _ _
  | clear => exact Contents.empty_sub _
  | unknown _ => exact .refl _

theorem hearAll_onContents_sub {es : List Event} (hes : ∀ e ∈ es, e.action ≠ .set)
    (w : Write V) (m : Contents V) :
    ((w.onContents m).hearAll codec es).Sub (w.onContents (m.hearAll codec es)) := by
  induction es generalizing m with
  | nil => exact .refl _
  | cons e es ih =>
    have first : ((w.onContents m).hear codec e).Sub (w.onContents (m.hear codec e)) :=
      hear_onContents_sub (hes e (.head es)) w m
    exact (first.hearAll es).trans (ih (fun e' he' => hes e' (.tail e he')) _)

end Write

end PodCache
