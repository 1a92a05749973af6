import Mathlib.Tactic
import PodCache.Proofs.Lists
import PodCache.Proofs.Text.Digits
import PodCache.Proofs.Text.Split
import PodCache.Url.Ipv6

/-!
# Reading back IPv6 addresses

An address is eight groups of 16 bits (`isAddress_of_parse?`), and whatever run of zero groups the
double colon stands for, its text is read as these groups (`parse?_render`).
-/

namespace PodCache.Url.Ipv6

open Text

variable {groups : List Nat} {text rest digits : List Char} {c : Char} {n d : Nat}

/-- Eight groups of 16 bits. -/
structure IsAddress (groups : List Nat) : Prop where
  length : groups.length = 8
  lt : ∀ n ∈ groups, n < 65536

/-! ## What is read is an address -/

theorem lt_of_hexValue? (h : Bytes.hexValue? c = some d) : d < 16 := by
  unfold Bytes.hexValue? at h
  dsimp only at h
  split_ifs at h <;> obtain rfl := Option.some.inj h <;> omega

theorem lt_of_foldlM_hexValue? {start : Nat}
    (h : digits.foldlM (fun n c => (Bytes.hexValue? c).map (16 * n + ·)) start = some n) :
    n < (start + 1) * 16 ^ digits.length := by
  induction digits generalizing start with
  | nil =>
    obtain rfl := Option.some.inj h
    simp
  | cons c digits ih =>
    rw [List.foldlM_cons] at h
    obtain ⟨m, hm, h⟩ := Option.bind_eq_some_iff.1 h
    obtain ⟨d, hd, rfl⟩ := Option.map_eq_some_iff.1 hm
    have hd := lt_of_hexValue? hd
    calc n < (16 * start + d + 1) * 16 ^ digits.length := ih h
      _ ≤ ((start + 1) * 16) * 16 ^ digits.length := Nat.mul_le_mul_right _ (by omega)
      _ = (start + 1) * 16 ^ (digits.length + 1) := by ring

theorem lt_of_group? (h : group? digits = some n) : n < 65536 := by
  unfold group? at h
  split_ifs at h with hlength
  rw [not_or] at hlength
  have hlt := lt_of_foldlM_hexValue? h
  have hpow : 16 ^ digits.length ≤ 16 ^ 4 := Nat.pow_le_pow_right (by omega) (by omega)
  omega

theorem lt_of_octet? (h : octet? digits = some n) : n < 256 := by
  unfold octet? at h
  dsimp only at h
  split_ifs at h with _ _ hlt
  exact Option.some.inj h ▸ hlt

theorem lt_of_dotted? {ns : List Nat} (h : dotted? text = some ns) : ∀ n ∈ ns, n < 65536 := by
  unfold dotted? at h
  split at h
  · rename_i hoctets
    obtain rfl := Option.some.inj h
    have hlt := forall_of_mapM hoctets fun _ _ _ => lt_of_octet?
    simp only [List.forall_mem_cons] at hlt ⊢
    obtain ⟨ha, hb, hc, hd, -⟩ := hlt
    exact ⟨by omega, by omega, nofun⟩
  · cases h

theorem lt_of_groups? {atEnd : Bool} {ns : List Nat} (h : groups? atEnd text = some ns) :
    ∀ n ∈ ns, n < 65536 := by
  unfold groups? at h
  split_ifs at h with hempty
  · obtain rfl := Option.some.inj h
    nofun
  · dsimp only at h
    split at h
    · cases h
    · obtain ⟨front, hfront, h⟩ := Option.bind_eq_some_iff.1 h
      have hfront := forall_of_mapM hfront fun _ _ _ => lt_of_group?
      split_ifs at h
      · obtain ⟨back, hback, h⟩ := Option.bind_eq_some_iff.1 h
        obtain rfl := Option.some.inj h
        exact List.forall_mem_append.2 ⟨hfront, lt_of_dotted? hback⟩
      · obtain ⟨back, hback, h⟩ := Option.bind_eq_some_iff.1 h
        obtain rfl := Option.some.inj h
        obtain ⟨n, hn, rfl⟩ := Option.map_eq_some_iff.1 hback
        exact List.forall_mem_append.2 ⟨hfront, by simpa using lt_of_group? hn⟩

theorem isAddress_of_parse? (h : parse? text = some groups) : IsAddress groups := by
  unfold parse? at h
  split at h
  · obtain ⟨ns, hns, h⟩ := Option.bind_eq_some_iff.1 h
    split_ifs at h with hlength
    obtain rfl := Option.some.inj h
    exact ⟨hlength, lt_of_groups? hns⟩
  · obtain ⟨front, hfront, h⟩ := Option.bind_eq_some_iff.1 h
    obtain ⟨back, hback, h⟩ := Option.bind_eq_some_iff.1 h
    split_ifs at h with hlength
    obtain rfl := Option.some.inj h
    refine ⟨by simp only [List.length_append, List.length_replicate]; omega, ?_⟩
    simp only [List.forall_mem_append]
    refine ⟨⟨lt_of_groups? hfront, fun n hn => ?_⟩, lt_of_groups? hback⟩
    rw [List.eq_of_mem_replicate hn]
    omega

/-! ## Groups between colons -/

theorem group?_toDigits (h : n < 65536) : group? (Nat.toDigits 16 n) = some n := by
  have hlength : (Nat.toDigits 16 n).length ≤ 4 :=
    (Nat.length_toDigits_le_iff (by omega) (by omega)).2 h
  rw [group?, if_neg (by simp [Nat.toDigits_ne_nil, hlength])]
  refine foldlM_toDigits (by omega) (fun n d hd => ?_) n
  rw [hexValue?_digitChar d hd]
  rfl

theorem ne_of_mem_toDigits (h : c ∈ Nat.toDigits 16 n) : c ≠ ':' ∧ c ≠ '.' := by
  obtain ⟨d, hd, rfl⟩ := digitChar_of_mem_toDigits (by omega) h
  have hall : ∀ d < 16, Nat.digitChar d ≠ ':' ∧ Nat.digitChar d ≠ '.' := by decide
  exact hall d hd

theorem splitAll_renderGroups (h : groups ≠ []) :
    splitAll (· == ':') (renderGroups groups) = groups.map (Nat.toDigits 16) := by
  refine splitAll_intercalate (p := (· == ':')) rfl (by simpa using h) fun piece hpiece c hc => ?_
  obtain ⟨n, -, rfl⟩ := List.mem_map.1 hpiece
  simpa using (ne_of_mem_toDigits hc).1

theorem mapM_group? (h : ∀ n ∈ groups, n < 65536) :
    (groups.map (Nat.toDigits 16)).mapM group? = some groups :=
  mapM_map_eq_some fun n hn => group?_toDigits (h n hn)

theorem renderGroups_ne_nil (h : groups ≠ []) : renderGroups groups ≠ [] := by
  intro hnil
  have hsplit := splitAll_renderGroups h
  rw [hnil] at hsplit
  obtain ⟨n, groups, rfl⟩ := List.exists_cons_of_ne_nil h
  exact Nat.toDigits_ne_nil (List.cons.inj hsplit).1.symm

theorem groups?_renderGroups (atEnd : Bool) (h : ∀ n ∈ groups, n < 65536) :
    groups? atEnd (renderGroups groups) = some groups := by
  rcases List.eq_nil_or_concat groups with rfl | ⟨front, last, rfl⟩
  · rfl
  · rw [List.concat_eq_append] at h ⊢
    obtain ⟨hfront, hlast⟩ := List.forall_mem_append.1 h
    have hlast := hlast last (List.mem_singleton_self last)
    have hdot : '.' ∉ Nat.toDigits 16 last := fun hmem => (ne_of_mem_toDigits hmem).2 rfl
    rw [groups?, if_neg (by simpa using renderGroups_ne_nil (by simp)),
      splitAll_renderGroups (by simp)]
    simp [mapM_group? hfront, group?_toDigits hlast, hdot]

/-! ## The double colon -/

theorem cutDouble_append {piece : List Char} (h : ∀ c ∈ piece, c ≠ ':') (rest : List Char) :
    cutDouble (piece ++ rest) = (piece ++ (cutDouble rest).1, (cutDouble rest).2) := by
  induction piece with
  | nil => rfl
  | cons c piece ih =>
    obtain ⟨hc, hpiece⟩ := List.forall_mem_cons.1 h
    rw [List.cons_append, cutDouble, ih hpiece]
    · rfl
    · rintro tail rfl
      exact absurd rfl hc

theorem cutDouble_colon (hc : c ≠ ':') (rest : List Char) :
    cutDouble (':' :: c :: rest) =
      (':' :: (cutDouble (c :: rest)).1, (cutDouble (c :: rest)).2) := by
  rw [cutDouble]
  rintro tail - heq
  exact hc (List.cons.inj heq).1

theorem renderGroups_cons_cons (n next : Nat) (groups : List Nat) :
    renderGroups (n :: next :: groups) =
      Nat.toDigits 16 n ++ ':' :: renderGroups (next :: groups) := by
  simp [renderGroups, List.intercalate_cons_cons]

theorem exists_renderGroups (n : Nat) (groups : List Nat) :
    ∃ c cs, renderGroups (n :: groups) = c :: cs ∧ c ≠ ':' := by
  obtain ⟨c, cs, hc⟩ := List.exists_cons_of_ne_nil (Nat.toDigits_ne_nil (n := n) (b := 16))
  have hne : c ≠ ':' := (ne_of_mem_toDigits (hc ▸ List.mem_cons_self)).1
  cases groups with
  | nil => exact ⟨c, cs, by simp [renderGroups, hc], hne⟩
  | cons next groups => exact ⟨c, _, by rw [renderGroups_cons_cons, hc, List.cons_append], hne⟩

/-- Groups between colons hold no double colon, nor do they begin one. -/
theorem cutDouble_renderGroups {after : Option (List Char)} (hrest : cutDouble rest = ([], after)) :
    cutDouble (renderGroups groups ++ rest) = (renderGroups groups, after) := by
  have hplain (n : Nat) : ∀ c ∈ Nat.toDigits 16 n, c ≠ ':' := fun c hc => (ne_of_mem_toDigits hc).1
  induction groups with
  | nil => exact hrest
  | cons n groups ih =>
    cases groups with
    | nil =>
      have hone : renderGroups [n] = Nat.toDigits 16 n := by simp [renderGroups]
      rw [hone, cutDouble_append (hplain n), hrest, List.append_nil]
    | cons next groups =>
      obtain ⟨c, cs, hc, hcolon⟩ := exists_renderGroups next groups
      rw [hc] at ih
      rw [renderGroups_cons_cons, List.append_assoc, cutDouble_append (hplain n),
        List.cons_append, hc, List.cons_append, cutDouble_colon hcolon, ← List.cons_append, ih]

/-! ## Whole addresses -/

/-- The groups around a run of zeros. -/
theorem take_append_zeros (groups : List Nat) (i : Nat) :
    groups.take i ++ List.replicate (zerosAt groups i) 0 ++ groups.drop (i + zerosAt groups i) =
      groups := by
  have hall : ((groups.drop i).takeWhile (· == 0)).all (· == 0) = true := List.all_takeWhile
  have hzeros : (groups.drop i).takeWhile (· == 0) = List.replicate (zerosAt groups i) 0 := by
    rw [List.eq_replicate_iff]
    exact ⟨rfl, fun n hn => by simpa using List.all_eq_true.1 hall n hn⟩
  have hsplit := List.takeWhile_append_dropWhile (p := (· == 0)) (l := groups.drop i)
  have hrest : groups.drop (i + zerosAt groups i) = (groups.drop i).dropWhile (· == 0) := by
    rw [← List.drop_drop]
    conv_lhs => rw [← hsplit]
    exact List.drop_left
  rw [hrest, ← hzeros, List.append_assoc, hsplit, List.take_append_drop]

theorem parse?_render (h : IsAddress groups) : parse? (render groups) = some groups := by
  have hdouble (rest : List Char) : cutDouble (':' :: ':' :: rest) = ([], some rest) := by
    rw [cutDouble]
  have hwhole : cutDouble (renderGroups groups ++ []) = (renderGroups groups, none) :=
    cutDouble_renderGroups rfl
  rw [List.append_nil] at hwhole
  unfold render
  dsimp only
  generalize longestZeros groups = start
  have hzeros := take_append_zeros groups start
  generalize zerosAt groups start = count at hzeros
  split_ifs with hcount
  · have hfront : ∀ n ∈ groups.take start, n < 65536 := fun n hn => h.lt n (List.mem_of_mem_take hn)
    have hback : ∀ n ∈ groups.drop (start + count), n < 65536 := fun n hn =>
      h.lt n (List.mem_of_mem_drop hn)
    have hlength := congrArg List.length hzeros
    simp only [List.length_append, List.length_replicate, h.length] at hlength
    rw [parse?, cutDouble_renderGroups (hdouble _)]
    simp only [groups?_renderGroups _ hfront, groups?_renderGroups _ hback, Option.bind_eq_bind,
      Option.bind_some]
    rw [if_pos (by omega), show 8 - ((groups.take start).length +
      (groups.drop (start + count)).length) = count by omega, hzeros]
  · rw [parse?, hwhole]
    simp only [groups?_renderGroups _ h.lt, Option.bind_eq_bind, Option.bind_some]
    rw [if_pos h.length]

theorem mem_renderGroups (h : c ∈ renderGroups groups) :
    c = ':' ∨ ∃ d < 16, c = Nat.digitChar d := by
  rcases mem_intercalate h with rfl | ⟨piece, hpiece, hc⟩
  · exact .inl rfl
  · obtain ⟨n, -, rfl⟩ := List.mem_map.1 hpiece
    exact .inr (digitChar_of_mem_toDigits (by omega) hc)

theorem mem_render (h : c ∈ render groups) : c = ':' ∨ ∃ d < 16, c = Nat.digitChar d := by
  unfold render at h
  dsimp only at h
  split_ifs at h
  · simp only [List.mem_append, List.mem_cons] at h
    rcases h with h | rfl | rfl | h
    · exact mem_renderGroups h
    · exact .inl rfl
    · exact .inl rfl
    · exact mem_renderGroups h
  · exact mem_renderGroups h

end PodCache.Url.Ipv6
