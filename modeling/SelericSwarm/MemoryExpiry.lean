import SelericSwarm.Memories
import SelericSwarm.Paging

/-! The expiry sweep: one page of a listing, and what of the due memories is on it. -/
open List

namespace SelericSwarm
open Keyed

namespace MemoryStore

def due (workspaceId ownerUserId : String) (now : Moment) (m : StoredMemory) : Bool :=
  m.workspaceId = workspaceId && m.ownerUserId = ownerUserId && m.status = .active && m.expiresAt.any (· ≤ now)

def place (s : MemoryStore) (m : StoredMemory) : Nat := (s.items.rows.map StoredMemory.id).idxOf m.id

def ahead (s : MemoryStore) (workspaceId ownerUserId : String) (now : Moment) (m : StoredMemory) : List StoredMemory :=
  Paging.ahead (fun a b => notBelow a b) s.place
    (s.items.rows.filter (listed workspaceId ownerUserId none none true now)) m

/-- Exactly the due memories have been archived. -/
structure Swept (workspaceId ownerUserId : String) (now : Moment) (s s' : MemoryStore) (changed : Nat) : Prop where
  none_due : ∀ m ∈ s'.items.rows, due workspaceId ownerUserId now m = false
  rows : s'.items.rows = s.items.rows.map fun m => if due workspaceId ownerUserId now m then m.archived now else m
  changed : changed = s.items.rows.countP (due workspaceId ownerUserId now)

/-! The order of the listing. -/

instance notBelow_total : Std.Total fun a b : StoredMemory => notBelow a b = true where
  total a b := by
    have hmoments := le_total b.updatedAt a.updatedAt
    cases ha : a.pinned <;> cases hb : b.pinned <;> simp [notBelow, ha, hb, hmoments]

instance notBelow_trans : IsTrans StoredMemory fun a b => notBelow a b = true where
  trans a b c := by
    have hmoments : b.updatedAt ≤ a.updatedAt → c.updatedAt ≤ b.updatedAt → c.updatedAt ≤ a.updatedAt :=
      fun hab hbc => le_trans hbc hab
    cases ha : a.pinned <;> cases hb : b.pinned <;> cases hc : c.pinned <;> simp [notBelow, ha, hb, hc]
    all_goals exact hmoments

variable {s : MemoryStore} {workspaceId ownerUserId : String} {projectId threadId : Option String} {now : Moment}
  {m item : StoredMemory} {items : List StoredMemory}

theorem place_lt (s : MemoryStore) : s.items.rows.Pairwise (s.place · < s.place ·) := by
  refine pairwise_iff_getElem.mpr fun i j hi hj hij => ?_
  have hplace : ∀ k (hk : k < s.items.rows.length), s.place s.items.rows[k] = k := by
    intro k hk
    have h := s.items.nodup.idxOf_getElem k (by rwa [length_map])
    rwa [getElem_map] at h
  rw [hplace i hi, hplace j hj]
  exact hij

theorem mem_list_iff (limit : Int) (hm : m ∈ s.items.rows)
    (hlisted : listed workspaceId ownerUserId projectId threadId true now m = true) :
    m ∈ s.list workspaceId ownerUserId projectId threadId true limit now ↔
      (Paging.ahead (fun a b => notBelow a b) s.place
        (s.items.rows.filter (listed workspaceId ownerUserId projectId threadId true now)) m).length <
        (max 1 limit).toNat :=
  Paging.mem_take_insertionSort _ (s.place_lt.sublist filter_sublist) (mem_filter.mpr ⟨hm, hlisted⟩) _

theorem nodup_list (s : MemoryStore) (workspaceId ownerUserId : String) (projectId threadId : Option String)
    (includeInactive : Bool) (limit : Int) (now : Moment) :
    ((s.list workspaceId ownerUserId projectId threadId includeInactive limit now).map StoredMemory.id).Nodup := by
  have hperm := perm_insertionSort (fun a b => notBelow a b = true)
    (s.items.rows.filter (listed workspaceId ownerUserId projectId threadId includeInactive now))
  have hrows := s.items.nodup.sublist ((filter_sublist (p := listed workspaceId ownerUserId projectId threadId
    includeInactive now)).map StoredMemory.id)
  exact ((hperm.map StoredMemory.id).nodup_iff.mpr hrows).sublist ((take_sublist _ _).map _)

/-! The loop. -/

/-- A memory that is read and written back takes its own place. -/
theorem update_archived (hitem : item ∈ s.items.rows) : (s.update (item.archived now)).2.items.rows =
    s.items.rows.map fun m => if m.id = item.id then item.archived now else m := by
  have hget : s.items.get? (item.archived now).id = some item := Table.get?_of_mem hitem
  rw [update, hget]
  simp only [StoredMemory.archived, and_self, if_true]
  exact Table.put_rows_of_get? hget

theorem expireEach_rows (items : List StoredMemory) : ∀ s : MemoryStore, (∀ item ∈ items, item ∈ s.items.rows) →
    (items.map StoredMemory.id).Nodup →
    (expireEach now items s).2.items.rows = s.items.rows.map fun m =>
      if m.id ∈ items.map StoredMemory.id ∧ (m.status = .active && m.expiresAt.any (· ≤ now)) then m.archived now
      else m := by
  induction items with
  | nil =>
    intro s _ _
    simp [expireEach]
  | cons item items ih =>
    intro s hitems hnodup
    have hitem := hitems item mem_cons_self
    obtain ⟨hfresh, hnodup⟩ := nodup_cons.mp hnodup
    have hne : ∀ other ∈ items, other.id ≠ item.id := fun other hother he =>
      hfresh (he ▸ List.mem_map_of_mem hother)
    rw [expireEach]
    split
    · next hexpired =>
      have hrest : ∀ other ∈ items, other ∈ (s.update (item.archived now)).2.items.rows := by
        intro other hother
        rw [update_archived hitem]
        exact List.mem_map.mpr ⟨other, hitems other (mem_cons_of_mem _ hother), if_neg (hne other hother)⟩
      rw [ih _ hrest hnodup, update_archived hitem, List.map_map]
      refine map_congr_left fun m hm => ?_
      by_cases hid : m.id = item.id
      · obtain rfl := s.items.eq_of_mem hm hitem hid
        simp [hexpired, hfresh, StoredMemory.archived]
      · simp [hid]
    · next hkept =>
      rw [ih s (fun other hother => hitems other (mem_cons_of_mem _ hother)) hnodup]
      refine map_congr_left fun m hm => ?_
      by_cases hid : m.id = item.id
      · obtain rfl := s.items.eq_of_mem hm hitem hid
        simp [hkept]
      · simp [hid]

theorem expireEach_count (items : List StoredMemory) : ∀ s : MemoryStore,
    (expireEach now items s).1 = items.countP fun m => m.status = .active && m.expiresAt.any (· ≤ now) := by
  induction items with
  | nil => exact fun _ => rfl
  | cons item items ih =>
    intro s
    rw [expireEach, countP_cons]
    split <;> simp [ih]

/-! The sweep. -/

theorem due_iff : due workspaceId ownerUserId now m = true ↔ m.workspaceId = workspaceId ∧ m.ownerUserId = ownerUserId ∧
    (m.status = .active && m.expiresAt.any (· ≤ now)) = true := by
  simp [due, and_assoc]

theorem listed_of_due (hdue : due workspaceId ownerUserId now m = true) :
    listed workspaceId ownerUserId none none true now m = decide (m.deletedAt = none) := by
  obtain ⟨hworkspace, howner, -⟩ := due_iff.mp hdue
  simp [listed, hworkspace, howner]

theorem on_page_iff (hm : m ∈ s.items.rows) :
    (m ∈ s.list workspaceId ownerUserId none none true 1000 now ∧
      (m.status = .active && m.expiresAt.any (· ≤ now)) = true) ↔
    due workspaceId ownerUserId now m = true ∧ m.deletedAt = none ∧
      (s.ahead workspaceId ownerUserId now m).length < 1000 := by
  constructor
  · rintro ⟨hmem, hexpired⟩
    obtain ⟨-, hlisted⟩ := mem_list hmem
    have hahead := (mem_list_iff 1000 hm hlisted).mp hmem
    simp only [listed, Bool.and_eq_true, decide_eq_true_eq] at hlisted
    obtain ⟨⟨⟨⟨⟨hworkspace, howner⟩, hdeleted⟩, -⟩, -⟩, -⟩ := hlisted
    exact ⟨due_iff.mpr ⟨hworkspace, howner, hexpired⟩, hdeleted, hahead⟩
  · rintro ⟨hdue, hdeleted, hahead⟩
    have hlisted : listed workspaceId ownerUserId none none true now m = true := by
      rw [listed_of_due hdue]
      exact decide_eq_true hdeleted
    exact ⟨(mem_list_iff 1000 hm hlisted).mpr hahead, (due_iff.mp hdue).2.2⟩

theorem expire_rows (s : MemoryStore) (workspaceId ownerUserId : String) (now : Moment) :
    (s.expire workspaceId ownerUserId now).2.items.rows = s.items.rows.map fun m =>
      if due workspaceId ownerUserId now m ∧ m.deletedAt = none ∧ (s.ahead workspaceId ownerUserId now m).length < 1000 then
        m.archived now
      else m := by
  rw [expire, expireEach_rows _ s (fun item hitem => (mem_list hitem).1) (nodup_list ..)]
  refine map_congr_left fun m hm => if_congr ?_ rfl rfl
  rw [← on_page_iff hm]
  refine and_congr_left fun _ => ⟨fun hid => ?_, fun hmem => List.mem_map_of_mem hmem⟩
  obtain ⟨item, hitem, heq⟩ := List.mem_map.mp hid
  obtain rfl := s.items.eq_of_mem (mem_list hitem).1 hm heq
  exact hitem

theorem due_archived : due workspaceId ownerUserId now (m.archived now) = false := by
  simp [due, StoredMemory.archived]

theorem expire_count (s : MemoryStore) (workspaceId ownerUserId : String) (now : Moment) :
    (s.expire workspaceId ownerUserId now).1 = s.items.rows.countP fun m =>
      due workspaceId ownerUserId now m ∧ m.deletedAt = none ∧ (s.ahead workspaceId ownerUserId now m).length < 1000 := by
  rw [expire, expireEach_count, countP_eq_length_filter, countP_eq_length_filter]
  refine Perm.length_eq ((perm_ext_iff_of_nodup ?_ ?_).mpr fun m => ?_)
  · exact (nodup_list ..).of_map.filter _
  · exact s.items.nodup.of_map.filter _
  · rw [mem_filter, mem_filter, decide_eq_true_eq]
    constructor
    · rintro ⟨hmem, hexpired⟩
      obtain ⟨hrow, hlisted⟩ := mem_list hmem
      exact ⟨hrow, (on_page_iff hrow).mp ⟨hmem, hexpired⟩⟩
    · rintro ⟨hrow, hdue⟩
      exact (on_page_iff hrow).mpr hdue

/-- The sweep is complete exactly when each due memory has not been deleted, and has less than a page
of the owner's undeleted memories ahead of it. -/
theorem swept_iff (s : MemoryStore) (workspaceId ownerUserId : String) (now : Moment) :
    Swept workspaceId ownerUserId now s (s.expire workspaceId ownerUserId now).2 (s.expire workspaceId ownerUserId now).1 ↔
      ∀ m ∈ s.items.rows, due workspaceId ownerUserId now m = true →
        m.deletedAt = none ∧ (s.ahead workspaceId ownerUserId now m).length < 1000 := by
  constructor
  · intro h m hm hdue
    by_contra hoff
    have hleft : m ∈ (s.expire workspaceId ownerUserId now).2.items.rows := by
      rw [expire_rows]
      exact List.mem_map.mpr ⟨m, hm, if_neg fun hpage => hoff hpage.2⟩
    rw [h.none_due m hleft] at hdue
    cases hdue
  · intro h
    have hpage : ∀ m ∈ s.items.rows, (due workspaceId ownerUserId now m = true ∧ m.deletedAt = none ∧
        (s.ahead workspaceId ownerUserId now m).length < 1000) ↔ due workspaceId ownerUserId now m = true :=
      fun m hm => ⟨And.left, fun hdue => ⟨hdue, h m hm hdue⟩⟩
    have hrows : (s.expire workspaceId ownerUserId now).2.items.rows = s.items.rows.map fun m =>
        if due workspaceId ownerUserId now m then m.archived now else m := by
      rw [expire_rows]
      exact map_congr_left fun m hm => if_congr (hpage m hm) rfl rfl
    refine ⟨fun m hm => ?_, hrows, ?_⟩
    · rw [hrows] at hm
      obtain ⟨old, -, rfl⟩ := List.mem_map.mp hm
      split
      · exact due_archived
      · next hnot => exact Bool.eq_false_iff.mpr hnot
    · rw [expire_count]
      exact countP_congr fun m hm => by rw [decide_eq_true_eq, hpage m hm]

def expired (n : Nat) : StoredMemory :=
  { id := String.ofList (List.replicate n 'm'), workspaceId := "w", ownerUserId := "u", scope := .user, type := some .fact
    status := .active, content := .text "", consentedAt := some 0, createdAt := 0, updatedAt := 0, expiresAt := some 5 }

theorem expired_nodup (n : Nat) : (((List.range n).map expired).map StoredMemory.id).Nodup := by
  rw [List.map_map]
  refine List.Nodup.map (fun i j h => ?_) nodup_range
  have hlength := congrArg (fun id : String => id.toList.length) h
  simpa [expired] using hlength

def crowd (n : Nat) : MemoryStore := { items := ⟨(List.range n).map expired, expired_nodup n⟩ }

theorem countP_crowd (n : Nat) : (crowd n).items.rows.countP (due "w" "u" 10) = n := by
  have hdue : ∀ m ∈ (crowd n).items.rows, due "w" "u" 10 m = true := by
    intro m hm
    obtain ⟨k, -, rfl⟩ := List.mem_map.mp hm
    rfl
  rw [countP_eq_length.mpr hdue]
  simp [crowd]

/-- Of a thousand and one expired memories a thousand are archived. -/
theorem crowd_not_swept : ¬Swept "w" "u" 10 (crowd 1001) ((crowd 1001).expire "w" "u" 10).2 ((crowd 1001).expire "w" "u" 10).1 := by
  intro h
  have hpage : ((crowd 1001).expire "w" "u" 10).1 ≤ 1000 := by
    rw [expire, expireEach_count]
    exact countP_le_length.trans (length_take_le _ _)
  rw [h.changed, countP_crowd] at hpage
  exact absurd hpage (by decide)

end MemoryStore
end SelericSwarm
