import PodCache.Proofs.Bus.Subscriptions
import PodCache.Proofs.Cluster.Closing
import PodCache.Proofs.Pod.Counts

/-!
# What a pod receives

Payloads that a cluster delivers to a pod make of it what they make of it one after another, whoever
else is there and whatever they do (`pod?_deliver`).
-/

namespace PodCache

namespace Pod

variable {V ω α : Type} {p p' q : Pod V} {w w' v : ω} {a b : α} {ds es : List Note}

/-- A step leaves one pod. -/
theorem Does.pod_eq {x : Act V ω α} (h : Does x p w a p' w' ds) (h' : Does x p w b q v es) :
    p' = q := by
  obtain ⟨added, hrun, -⟩ := h []
  obtain ⟨added', hrun', -⟩ := h' []
  exact congrArg (fun out => out.2.pod) (hrun.symm.trans hrun')

/-- Whatever happens on its synchronizer concerns the pod only, and not its settings. -/
theorem exists_does_react (p : Pod V) (o : Occurrence Unit) :
    ∃ p' ds, p'.settings = p.settings ∧ ∀ w : ω, Does (react o) p w () p' w ds := by
  cases o with
  | event callback e =>
    cases ho : p.closed with
    | true => exact ⟨p, [], rfl, fun w notes => ⟨[], by
        rw [List.append_nil]
        exact run_of_closed ho () _, rfl⟩⟩
    | false =>
      obtain ⟨p', ds, hpath, hdoes⟩ := does_handleEvent (ω := ω) ho e
      exact ⟨p', ds, hpath.frame.1, hdoes⟩
  | failure callback e => exact ⟨p, _, rfl, does_report e p⟩
  | undecodable e => exact ⟨p, _, rfl, does_pure () p⟩
  | lagged skipped => exact ⟨p, _, rfl, does_pure () p⟩

theorem exists_does_reactAll (p : Pod V) (os : List (Occurrence Unit)) :
    ∃ p' ds, p'.settings = p.settings ∧ ∀ w : ω, Does (os.forM react) p w () p' w ds := by
  induction os generalizing p with
  | nil => exact ⟨p, _, rfl, does_pure () p⟩
  | cons o os ih =>
    obtain ⟨p₁, ds₁, hsettings₁, hfirst⟩ := exists_does_react (ω := ω) p o
    obtain ⟨p₂, ds₂, hsettings₂, hrest⟩ := ih p₁
    exact ⟨p₂, _, hsettings₂.trans hsettings₁, fun w => (hfirst w).bind (hrest w)⟩

/-- To receive payloads is to react to all that dispatching them comes to. -/
theorem after_receive (w : ω) (payloads : List Bytes)
    (h : Does (((Listeners.ofPod p.settings.instanceId).dispatchAll payloads).1.forM react)
      p w () p' w ds) : p.after (payloads.map (.receive w)) = p' := by
  induction payloads generalizing p ds with
  | nil => exact (does_pure () p w).pod_eq h
  | cons payload payloads ih =>
    set l := Listeners.ofPod p.settings.instanceId
    obtain ⟨hl, -⟩ := Listeners.dispatchBytes_ofPod p.settings.instanceId payload
    obtain ⟨p₁, ds₁, hsettings, hfirst⟩ :=
      exists_does_reactAll (ω := ω) p (l.dispatchBytes payload).1
    obtain ⟨p₂, ds₂, -, hrest⟩ := exists_does_reactAll (ω := ω) p₁ (l.dispatchAll payloads).1
    have hon : p.on (.receive w payload) = p₁ :=
      (Does.deeds (s := ⟨p, w, []⟩) (does_state_bind fun _ => hfirst w)).2.1
    have hsplit : (l.dispatchAll (payload :: payloads)).1.forM react = (do
        (l.dispatchBytes payload).1.forM react
        (l.dispatchAll payloads).1.forM react : Act V ω Unit) := by
      rw [Listeners.dispatchAll]
      dsimp only
      rw [hl]
      exact List.forM_append
    rw [hsplit] at h
    obtain rfl : p₂ = p' := ((hfirst w).bind (hrest w)).pod_eq h
    show (p.on (.receive w payload)).after (payloads.map (.receive w)) = p₂
    rw [hon]
    exact ih (by rw [hsettings]; exact hrest w)

/-- That payloads were lost does not concern the pod. -/
theorem Does.lagged {os : List (Occurrence Unit)} (h : Does (os.forM react) p w () p' w' ds)
    (lost : List Nat) : Does ((lost.map Occurrence.lagged ++ os).forM react) p w () p' w' ds := by
  induction lost with
  | nil => exact h
  | cons skipped lost ih => exact (does_pure () p w).bind ih

end Pod

namespace Cluster

variable {V : Type} {c : Cluster V} {i : Nat} {p p' : Pod V} {ds : List Note} {w : Shared Unit}

theorem member_of_pod? (hp : c.pod? i = some p) :
    ∃ faults, c.members[i]? = some { pod := some p, faults } := by
  obtain ⟨⟨pod, faults⟩, hm, hpod⟩ := Option.bind_eq_some_iff.1 hp
  obtain rfl : pod = some p := hpod
  exact ⟨faults, hm⟩

theorem pod?_act (step : Services (Shared Unit) → Act V (Shared Unit) Unit)
    (hp : c.pod? i = some p)
    (h : ∀ services, Pod.Does (step services) p c.shared () p' c.shared ds) :
    (c.act i step).2.pod? i = some p' ∧ (c.act i step).2.shared = c.shared := by
  obtain ⟨faults, hm⟩ := member_of_pod? hp
  obtain ⟨added, hrun, -⟩ := h (services i faults) []
  rw [act_eq step hm hrun]
  refine ⟨?_, rfl⟩
  rw [pod?, Array.getElem?_modify, if_pos rfl, hm]
  rfl

/-- A pod of a cluster reacts as it does on its own. -/
theorem pod?_react {o : Occurrence Unit} (hp : c.pod? i = some p)
    (h : Pod.Does (Pod.react o) p c.shared () p' c.shared ds) :
    (c.react i o).2.pod? i = some p' ∧ (c.react i o).2.shared = c.shared := by
  cases o with
  | event callback e =>
    have hact := pod?_act (fun _ => Pod.handleEvent e) hp fun _ => h
    exact hact
  | failure callback e =>
    have hact := pod?_act (fun _ => Pod.report e) hp fun _ => h
    exact hact
  | undecodable e => exact ⟨(Pod.does_pure () p _).pod_eq h ▸ hp, rfl⟩
  | lagged skipped => exact ⟨(Pod.does_pure () p _).pod_eq h ▸ hp, rfl⟩

theorem pod?_reactAll (os : List (Occurrence Unit)) (hp : c.pod? i = some p)
    (h : Pod.Does (os.forM Pod.react) p c.shared () p' c.shared ds) :
    (c.reactAll i os).2.pod? i = some p' := by
  induction os generalizing c p ds with
  | nil => exact (Pod.does_pure () p _).pod_eq h ▸ hp
  | cons o os ih =>
    obtain ⟨p₁, ds₁, -, hfirst⟩ := Pod.exists_does_react (ω := Shared Unit) p o
    obtain ⟨p₂, ds₂, -, hrest⟩ := Pod.exists_does_reactAll (ω := Shared Unit) p₁ os
    obtain ⟨hp₁, hshared⟩ := pod?_react hp (hfirst c.shared)
    obtain rfl : p₂ = p' := ((hfirst c.shared).bind (hrest c.shared)).pod_eq h
    exact ih hp₁ (hrest _)

/-- A cluster delivers to a pod what waits for it, and the pod receives payload after payload. -/
theorem pod?_deliver {s : Synchronizer Unit} (hp : c.pod? i = some p)
    (hs : c.shared.bus.synchronizers[i]? = some s)
    (hl : s.listeners = .ofPod p.settings.instanceId) (count : Nat) (w : Shared Unit) :
    (c.deliver i count).2.pod? i =
      some (p.after (((c.shared.bus.waiting i).take count).map (.receive w))) := by
  set payloads := (c.shared.bus.waiting i).take count
  obtain ⟨p', ds, -, hdoes⟩ := Pod.exists_does_reactAll (ω := Shared Unit) p
    ((Listeners.ofPod p.settings.instanceId).dispatchAll payloads).1
  rw [Pod.after_receive w payloads (hdoes w)]
  have hplain : s.listeners.Plain := by
    rw [hl]
    exact fun _ hc => by rw [List.mem_singleton.1 hc]
  obtain ⟨lost, htake⟩ := Bus.take_eq_told hplain hs count
  have htold : payloads.flatMap s.listeners.told = (s.listeners.dispatchAll payloads).1 := by
    rw [Listeners.dispatchAll_of_plain hplain]
  rw [htold, hl] at htake
  unfold deliver
  dsimp only
  rw [htake]
  exact pod?_reactAll _ hp ((hdoes _).lagged lost)

end Cluster

end PodCache
