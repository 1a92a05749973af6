import PodCache.Bus.Basic
import PodCache.Pod.Services
import PodCache.Store.Memory

/-!
# Services in memory

The pods of one process share a store and a bus in memory.  They respond at once.
-/

namespace PodCache

/-- A store and a bus in memory, which the pods of one process share. -/
structure Shared (κ : Type) where
  store : MemoryStore := {}
  bus : Bus κ := Bus.withCapacity Bus.defaultCapacity

namespace Shared

variable {κ : Type}

/-- The same result, or an empty value for success. -/
def emptyValue (result : Except Error Unit) : Except Error Bytes := result.map fun _ => []

/-- A change of the store. -/
def ofStore (w : Shared κ) (result : Except Error Unit × MemoryStore) : Response (Shared κ) :=
  ⟨0, emptyValue result.1, { w with store := result.2 }⟩

/-- A change of the bus. -/
def ofBus (w : Shared κ) (result : Except Error Unit × Bus κ) : Response (Shared κ) :=
  ⟨0, emptyValue result.1, { w with bus := result.2 }⟩

/-- The services of a handle of the store and a synchronizer of the bus. -/
def services (handle synchronizer : Nat) : Services (Shared κ)
  | .storeGet key, w => ⟨0, w.store.get handle key, w⟩
  | .storeSet key value, w => w.ofStore (w.store.set handle key value)
  | .storeDelete key, w => w.ofStore (w.store.delete handle key)
  | .storeClear, w => w.ofStore (w.store.clear handle)
  | .storeClose, w => w.ofStore (.ok (), w.store.close handle)
  | .subscribe, w => w.ofBus (w.bus.subscribe synchronizer)
  | .publish event, w => w.ofBus (w.bus.publish synchronizer event)
  | .synchronizerClose, w => w.ofBus (.ok (), w.bus.close synchronizer)

end Shared

end PodCache
