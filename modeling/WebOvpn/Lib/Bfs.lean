/-
Breadth-first search of a graph with a queue and a dict of depths.  Every
vertex on the queue has its depth already; the depths on the queue never
decrease, and no depth found so far exceeds the first of them by more than
one.  A vertex that has left the queue has no neighbour without a depth.
-/
import Mathlib.Combinatorics.SimpleGraph.Connectivity.Connected
import WebOvpn.Lib.Listing

namespace WebOvpn.Bfs

open List

variable {α : Type} [DecidableEq α]

/-- The depths found so far and the vertices whose neighbours are still to be looked at. -/
structure State (α : Type) where
  depths : List (α × Nat)
  queue : List α

def State.offer (depth : Nat) (s : State α) (peer : α) : State α :=
  if (s.depths.lookup peer).isSome then s else ⟨s.depths ++ [(peer, depth + 1)], s.queue ++ [peer]⟩

/-- The body of the loop, for the vertex just taken from the queue. -/
def visit (next : α → List α) (s : State α) (vertex : α) (rest : List α) : State α :=
  (next vertex).foldl (State.offer ((s.depths.lookup vertex).getD 0)) ⟨s.depths, rest⟩

/-- The loop, for as many turns as the fuel allows. -/
def run (next : α → List α) : Nat → State α → State α
  | 0, s => s
  | fuel + 1, s =>
    match s.queue with
    | [] => s
    | vertex :: rest => run next fuel (visit next s vertex rest)

def start (roots : List α) : State α := ⟨roots.map (·, 0), roots⟩

def ReachedIn (G : SimpleGraph α) (roots : List α) (n : Nat) (v : α) : Prop :=
  ∃ root ∈ roots, ∃ p : G.Walk root v, p.length = n

section

variable {s : State α} {depth n : Nat} {peer v w : α}

theorem offer_of_isSome (h : (s.depths.lookup peer).isSome = true) : s.offer depth peer = s := if_pos h

theorem offer_of_none (h : s.depths.lookup peer = none) :
    s.offer depth peer = ⟨s.depths ++ [(peer, depth + 1)], s.queue ++ [peer]⟩ := by
  unfold State.offer
  rw [h]
  rfl

theorem lookup_offer (h : s.depths.lookup v = some n) :
    (s.offer depth peer).depths.lookup v = some n := by
  cases hpe : s.depths.lookup peer with
  | some m => rwa [offer_of_isSome (by rw [hpe]; rfl)]
  | none =>
    rw [offer_of_none hpe]
    exact lookup_concat_of_some h

theorem lookup_foldl_offer (peers : List α) (h : s.depths.lookup v = some n) :
    (peers.foldl (State.offer depth) s).depths.lookup v = some n := by
  induction peers generalizing s with
  | nil => exact h
  | cons peer peers ih => exact ih (lookup_offer h)

theorem isSome_lookup_offer (s : State α) (depth : Nat) (peer : α) :
    ((s.offer depth peer).depths.lookup peer).isSome = true := by
  cases hpe : s.depths.lookup peer with
  | some m =>
    rw [lookup_offer hpe]
    rfl
  | none =>
    rw [offer_of_none hpe, lookup_concat_self hpe]
    rfl

theorem exists_lookup_foldl_offer (s : State α) (depth : Nat) {peers : List α} (h : peer ∈ peers) :
    ∃ n, (peers.foldl (State.offer depth) s).depths.lookup peer = some n := by
  induction peers generalizing s with
  | nil => cases h
  | cons first peers ih =>
    rcases mem_cons.1 h with rfl | h
    · obtain ⟨n, hn⟩ := Option.isSome_iff_exists.1 (isSome_lookup_offer s depth peer)
      exact ⟨n, lookup_foldl_offer peers hn⟩
    · exact ih _ h

end

def ClosedAt (next : α → List α) (s : State α) (n : Nat) (v : α) : Prop :=
  ∀ w ∈ next v, ∃ m ≤ n + 1, s.depths.lookup w = some m

/-- Between two steps of the search.  `floor` is the depth that has been reached and `pending` the
vertex whose neighbours are being offered. -/
structure Inv (G : SimpleGraph α) (next : α → List α) (roots : List α) (floor : Nat) (pending : Option α)
    (s : State α) : Prop where
  sound : ∀ v n, s.depths.lookup v = some n → ReachedIn G roots n v
  root : ∀ v ∈ roots, s.depths.lookup v = some 0
  queued : ∀ v ∈ s.queue, ∃ n ≥ floor, s.depths.lookup v = some n
  ordered : s.queue.Pairwise fun v w => ∀ m n, s.depths.lookup v = some m → s.depths.lookup w = some n → m ≤ n
  near : ∀ v n, s.depths.lookup v = some n → n ≤ floor + 1
  closed : ∀ v n, s.depths.lookup v = some n → v ∈ s.queue ∨ pending = some v ∨ ClosedAt next s n v

section

variable {G : SimpleGraph α} {next : α → List α} {roots : List α} {s : State α} {floor depth : Nat}
  {pending : Option α} {vertex peer : α}

theorem inv_start : Inv G next roots 0 none (start roots) := by
  have hro : ∀ v n, (roots.map (·, 0)).lookup v = some n → v ∈ roots ∧ n = 0 := by
    intro v n h
    obtain ⟨root, hroot, heq⟩ := mem_map.1 (mem_of_lookup h)
    cases heq
    exact ⟨hroot, rfl⟩
  have hlo : ∀ v ∈ roots, (roots.map (·, 0)).lookup v = some 0 := by
    intro v hv
    cases h : (roots.map (·, 0)).lookup v with
    | none => exact absurd (mem_map.2 ⟨(v, 0), mem_map.2 ⟨v, hv, rfl⟩, rfl⟩) (not_mem_of_lookup h)
    | some n => rw [(hro v n h).2]
  constructor
  · intro v n h
    obtain ⟨hv, rfl⟩ := hro v n h
    exact ⟨v, hv, .nil, rfl⟩
  · exact hlo
  · intro v hv
    exact ⟨0, le_rfl, hlo v hv⟩
  · apply pairwise_iff_forall_sublist.2
    intro v w _ m n hm hn
    rw [(hro v m hm).2]
    exact Nat.zero_le n
  · intro v n h
    rw [(hro v n h).2]
    exact Nat.zero_le 1
  · intro v n h
    exact .inl (hro v n h).1

theorem ClosedAt.offer (h : ClosedAt next s depth vertex) :
    ClosedAt next (s.offer floor peer) depth vertex := by
  intro w hw
  obtain ⟨m, hm, hlo⟩ := h w hw
  exact ⟨m, hm, lookup_offer hlo⟩

theorem Inv.offer (inv : Inv G next roots floor (some vertex) s)
    (hvr : s.depths.lookup vertex = some floor)
    (hadj : peer = vertex ∨ G.Adj vertex peer) :
      Inv G next roots floor (some vertex) (s.offer floor peer) := by
  cases hpe : s.depths.lookup peer with
  | some m => rwa [offer_of_isSome (by rw [hpe]; rfl)]
  | none =>
    have hke : ∀ v ∈ s.queue, v ≠ peer := by
      intro v hv heq
      obtain ⟨n, -, hn⟩ := inv.queued v hv
      rw [heq, hpe] at hn
      cases hn
    have hcl : ∀ v n, ClosedAt next s n v → ClosedAt next (s.offer floor peer) n v := fun v n h => h.offer
    rw [offer_of_none hpe] at hcl ⊢
    constructor
    · intro v n h
      rcases lookup_concat_eq_some hpe h with ⟨rfl, rfl⟩ | ⟨-, h⟩
      · rcases hadj with rfl | hadj
        · rw [hpe] at hvr
          cases hvr
        · obtain ⟨root, hro, p, hp⟩ := inv.sound vertex floor hvr
          exact ⟨root, hro, p.concat hadj, by rw [SimpleGraph.Walk.length_concat, hp]⟩
      · exact inv.sound v n h
    · intro v hv
      exact lookup_concat_of_some (inv.root v hv)
    · intro v hv
      rcases mem_append.1 hv with hv | hv
      · obtain ⟨n, hn, h⟩ := inv.queued v hv
        exact ⟨n, hn, lookup_concat_of_some h⟩
      · rw [mem_singleton.1 hv]
        exact ⟨floor + 1, Nat.le_succ floor, lookup_concat_self hpe⟩
    · apply pairwise_append.2
      refine ⟨?_, pairwise_singleton .., ?_⟩
      · apply inv.ordered.imp_of_mem
        intro v w hv hw h m n hm hn
        rw [lookup_concat_of_ne (hke v hv)] at hm
        rw [lookup_concat_of_ne (hke w hw)] at hn
        exact h m n hm hn
      · intro v hv w hw m n hm hn
        rw [lookup_concat_of_ne (hke v hv)] at hm
        rw [mem_singleton.1 hw, lookup_concat_self hpe] at hn
        cases hn
        exact inv.near v m hm
    · intro v n h
      rcases lookup_concat_eq_some hpe h with ⟨rfl, rfl⟩ | ⟨-, h⟩
      · exact le_rfl
      · exact inv.near v n h
    · intro v n h
      rcases lookup_concat_eq_some hpe h with ⟨rfl, rfl⟩ | ⟨-, h⟩
      · exact .inl (mem_append_right _ (mem_singleton_self _))
      · rcases inv.closed v n h with hv | hv | hv
        · exact .inl (mem_append_left _ hv)
        · exact .inr (.inl hv)
        · exact .inr (.inr (hcl v n hv))

theorem Inv.foldl_offer {peers : List α} (inv : Inv G next roots floor (some vertex) s)
    (hvr : s.depths.lookup vertex = some floor)
    (hadj : ∀ peer ∈ peers, peer = vertex ∨ G.Adj vertex peer) :
    Inv G next roots floor (some vertex) (peers.foldl (State.offer floor) s) := by
  induction peers generalizing s with
  | nil => exact inv
  | cons peer peers ih =>
    apply ih
    · exact inv.offer hvr (hadj peer mem_cons_self)
    · exact lookup_offer hvr
    · intro p hp
      exact hadj p (mem_cons_of_mem peer hp)

theorem Inv.visit {rest : List α} (inv : Inv G next roots floor none s)
    (hqueue : s.queue = vertex :: rest)
    (hnext : ∀ w ∈ next vertex, w = vertex ∨ G.Adj vertex w) :
    ∃ floor, Inv G next roots floor none (visit next s vertex rest) := by
  obtain ⟨depth, hflo, hvr⟩ := inv.queued vertex (by rw [hqueue]; exact mem_cons_self)
  have hord := inv.ordered
  rw [hqueue, pairwise_cons] at hord
  have taken : Inv G next roots depth (some vertex) ⟨s.depths, rest⟩ := by
    constructor
    · exact inv.sound
    · exact inv.root
    · intro v hv
      obtain ⟨n, -, hn⟩ := inv.queued v (by rw [hqueue]; exact mem_cons_of_mem vertex hv)
      exact ⟨n, hord.1 v hv depth n hvr hn, hn⟩
    · exact hord.2
    · intro v n h
      have := inv.near v n h
      omega
    · intro v n h
      rcases inv.closed v n h with hv | hv | hv
      · rw [hqueue] at hv
        rcases mem_cons.1 hv with rfl | hv
        · exact .inr (.inl rfl)
        · exact .inl hv
      · cases hv
      · exact .inr (.inr hv)
  unfold Bfs.visit
  rw [hvr, Option.getD_some]
  have offered := taken.foldl_offer hvr hnext
  refine ⟨depth, offered.sound, offered.root, offered.queued, offered.ordered, offered.near, ?_⟩
  intro v n h
  rcases offered.closed v n h with hv | hv | hv
  · exact .inl hv
  · have hsm : ((next vertex).foldl (State.offer depth) ⟨s.depths, rest⟩).depths.lookup vertex = some depth :=
      lookup_foldl_offer (next vertex) hvr
    obtain rfl := Option.some.inj hv
    rw [h] at hsm
    obtain rfl := Option.some.inj hsm
    right
    right
    intro w hw
    obtain ⟨m, hm⟩ := exists_lookup_foldl_offer ⟨s.depths, rest⟩ n hw
    exact ⟨m, offered.near w m hm, hm⟩
  · exact .inr (.inr hv)

theorem Inv.run (fuel : Nat) (inv : Inv G next roots floor none s)
    (hnext : ∀ v, ∀ w ∈ next v, w = v ∨ G.Adj v w) :
      ∃ floor, Inv G next roots floor none (run next fuel s) := by
  induction fuel generalizing s floor with
  | zero => exact ⟨floor, inv⟩
  | succ fuel ih =>
    unfold Bfs.run
    split
    · exact ⟨floor, inv⟩
    · rename_i vertex rest hqueue
      obtain ⟨floor, visited⟩ := inv.visit hqueue (hnext vertex)
      exact ih visited

end

section

variable {next : α → List α} {s : State α} {vertices : Finset α}

/-- Every vertex with a depth is one of `vertices`, and it has one depth. -/
structure Within (vertices : Finset α) (s : State α) : Prop where
  nodup : (s.depths.map Prod.fst).Nodup
  subset : ∀ v ∈ s.depths.map Prod.fst, v ∈ vertices

theorem Within.length_le (within : Within vertices s) : s.depths.length ≤ vertices.card := by
  have hcr := toFinset_card_of_nodup within.nodup
  rw [length_map] at hcr
  rw [← hcr]
  apply Finset.card_le_card
  intro v hv
  exact within.subset v (mem_toFinset.1 hv)

theorem Within.foldl_offer (depth : Nat) {peers : List α} (within : Within vertices s)
    (hpeers : ∀ peer ∈ peers, peer ∈ vertices) : Within vertices (peers.foldl (State.offer depth) s) ∧
      (peers.foldl (State.offer depth) s).queue.length + s.depths.length =
        s.queue.length + (peers.foldl (State.offer depth) s).depths.length := by
  induction peers generalizing s with
  | nil => exact ⟨within, rfl⟩
  | cons peer peers ih =>
    have hrs : ∀ p ∈ peers, p ∈ vertices := fun p hp => hpeers p (mem_cons_of_mem peer hp)
    rw [foldl_cons]
    cases hpe : s.depths.lookup peer with
    | some m =>
      rw [offer_of_isSome (by rw [hpe]; rfl)]
      exact ih within hrs
    | none =>
      rw [offer_of_none hpe]
      have added : Within vertices ⟨s.depths ++ [(peer, depth + 1)], s.queue ++ [peer]⟩ := by
        constructor
        · exact nodup_concat within.nodup hpe
        · intro v hv
          rw [map_append] at hv
          rcases mem_append.1 hv with hv | hv
          · exact within.subset v hv
          · rw [map_singleton, mem_singleton] at hv
            exact hv ▸ hpeers peer mem_cons_self
      obtain ⟨hwit, hlen⟩ := ih added hrs
      refine ⟨hwit, ?_⟩
      simp only [length_append, length_singleton] at hlen
      omega

theorem queue_run (fuel : Nat) (within : Within vertices s) (hnext : ∀ v, ∀ w ∈ next v, w ∈ vertices)
    (hfe : vertices.card + s.queue.length ≤ fuel + s.depths.length) : (run next fuel s).queue = [] := by
  induction fuel generalizing s with
  | zero =>
    have := within.length_le
    apply length_eq_zero_iff.1
    change s.queue.length = 0
    omega
  | succ fuel ih =>
    unfold run
    split
    · assumption
    · rename_i vertex rest hqueue
      have taken : Within vertices ⟨s.depths, rest⟩ := ⟨within.nodup, within.subset⟩
      obtain ⟨visited, hlen⟩ := taken.foldl_offer ((s.depths.lookup vertex).getD 0) (hnext vertex)
      apply ih visited
      rw [hqueue, length_cons] at hfe
      dsimp only at hlen
      omega

omit [DecidableEq α] in
theorem within_start {roots : List α} (hnd : roots.Nodup) (hro : ∀ v ∈ roots, v ∈ vertices) :
    Within vertices (start roots) := by
  have hks : (start roots).depths.map Prod.fst = roots := by
    unfold start
    rw [map_map]
    exact map_id roots
  constructor
  · rwa [hks]
  · rwa [hks]

end

section

variable {G : SimpleGraph α} {next : α → List α} {roots : List α} {s : State α} {floor : Nat} {v : α}

section

variable (inv : Inv G next roots floor none s) (hqueue : s.queue = [])
    (hnext : ∀ v w, G.Adj v w → w ∈ next v)
include inv hqueue hnext

theorem Inv.exists_le {u : α} (p : G.Walk u v) {m : Nat} (hu : s.depths.lookup u = some m) :
    ∃ n ≤ m + p.length, s.depths.lookup v = some n := by
  induction p generalizing m with
  | nil => exact ⟨m, le_rfl, hu⟩
  | cons hadj p ih =>
    rename_i u w v
    rcases inv.closed u m hu with hmem | hmem | hcl
    · rw [hqueue] at hmem
      cases hmem
    · cases hmem
    · obtain ⟨n, hn, hw⟩ := hcl w (hnext u w hadj)
      obtain ⟨k, hk, hv⟩ := ih hw
      refine ⟨k, ?_, hv⟩
      rw [SimpleGraph.Walk.length_cons]
      omega

theorem Inv.lookup_eq_some_iff {n : Nat} :
    s.depths.lookup v = some n ↔ ReachedIn G roots n v ∧ ∀ m, ReachedIn G roots m v → n ≤ m := by
  have hla : ∀ m, ReachedIn G roots m v → ∃ n ≤ m, s.depths.lookup v = some n := by
    rintro m ⟨root, hro, p, rfl⟩
    obtain ⟨n, hn, hv⟩ := inv.exists_le hqueue hnext p (inv.root root hro)
    exact ⟨n, by omega, hv⟩
  constructor
  · intro h
    refine ⟨inv.sound v n h, ?_⟩
    intro m hm
    obtain ⟨n', hn', h'⟩ := hla m hm
    rw [h] at h'
    cases h'
    exact hn'
  · rintro ⟨hra, hmin⟩
    obtain ⟨n', hn', h'⟩ := hla n hra
    have := hmin n' (inv.sound v n' h')
    rw [h', le_antisymm hn' this]

theorem Inv.lookup_eq_none_iff :
    s.depths.lookup v = none ↔ ∀ root ∈ roots, ¬ G.Reachable root v := by
  constructor
  · rintro h root hro ⟨p⟩
    obtain ⟨n, -, hv⟩ := inv.exists_le hqueue hnext p (inv.root root hro)
    rw [h] at hv
    cases hv
  · intro h
    cases hv : s.depths.lookup v with
    | none => rfl
    | some n =>
      obtain ⟨root, hro, p, -⟩ := inv.sound v n hv
      exact absurd ⟨p⟩ (h root hro)

end

end

end WebOvpn.Bfs
