import Rpxy.LoadBalancePick
import Rpxy.Base64

/-!
# The sticky round-robin balancer

`load_balance_sticky.rs`: round robin over the healthy upstreams, with a cookie that keeps a
client on the upstream it was first sent to. The id of an upstream is the unpadded base64url
SHA-256 of its URI and index (`calculate_id_with_index`); the balancer keeps the ids by index,
and a hash map from id back to index. A request whose cookie names a healthy upstream goes
there and gets no new cookie; any other request takes the next round-robin pick and a new
cookie naming it.

The balancer's state is its round-robin counter. SHA-256 is the parameter `sha256`; the hash
map is modelled by its entries, most recent insert first; an `unwrap` that would panic is
`none`.
-/

namespace Rpxy.StickyLoadBalance

open StickyCookies LoadBalancePick HttpHeaders

/-- `HashMap::insert` on the entries of a map from ids to indices. -/
def hashMapInsert (m : List (List Char × Nat)) (k : List Char) (v : Nat) : List (List Char × Nat) :=
  (k, v) :: m.filter fun e => e.1 != k

/-- `UpstreamMap`: the id of each index, and the map from id back to index. -/
structure UpstreamMap where
  /-- `upstream_index_map`, the id of each index. -/
  upstreamIndexMap : List (List Char)
  /-- `upstream_id_map`, the index of each id. -/
  upstreamIdMap : List (List Char × Nat)
  deriving DecidableEq, Repr

section Hash

variable (sha256 : List UInt8 → List UInt8)

/-- `Upstream::calculate_id_with_index`. -/
def calculateIdWithIndex (u : Upstream) (index : Nat) : List Char :=
  Base64.encode (sha256 (utf8Bytes (u.uri ++ "&index=".toList ++ (toString index).toList)))

/-- `LoadBalanceStickyBuilder::upstream_maps`. -/
def upstreamMaps (upstreamVec : List Upstream) : UpstreamMap :=
  let upstreamIndexMap := upstreamVec.zipIdx.map fun p => calculateIdWithIndex sha256 p.1 p.2
  let upstreamIdMap := upstreamIndexMap.zipIdx.foldl (fun m p => hashMapInsert m p.1 p.2) []
  ⟨upstreamIndexMap, upstreamIdMap⟩

end Hash

/-- `LoadBalanceSticky`: the round-robin counter, the cookie configuration and the id maps. -/
structure LoadBalanceSticky where
  /-- The round-robin counter. -/
  ptr : Nat
  /-- The cookie configuration. -/
  stickyConfig : StickyCookieConfig
  /-- The id maps. -/
  upstreamMaps : UpstreamMap

namespace LoadBalanceSticky

/-- `LoadBalanceSticky::fetch_and_advance`. -/
def fetchAndAdvance (lb : LoadBalanceSticky) : Nat × LoadBalanceSticky :=
  ((fetchAndAdvanceCounter lb.ptr).1, { lb with ptr := (fetchAndAdvanceCounter lb.ptr).2 })

/-- `LoadBalanceSticky::rr_next_index`. -/
def rrNextIndex (lb : LoadBalanceSticky) (upstreams : List Upstream) : Nat × LoadBalanceSticky :=
  (pickNthAvailableIndex upstreams lb.fetchAndAdvance.1, lb.fetchAndAdvance.2)

/-- `LoadBalanceSticky::get_server_id_from_index`; `none` where its `unwrap` panics. -/
def getServerIdFromIndex (lb : LoadBalanceSticky) (index : Nat) : Option (List Char) :=
  lb.upstreamMaps.upstreamIndexMap[index]?

/-- `LoadBalanceSticky::get_server_index_from_id`. -/
def getServerIndexFromId (lb : LoadBalanceSticky) (id : List Char) : Option Nat :=
  lb.upstreamMaps.upstreamIdMap.lookup id

/-- `LoadBalanceSticky::build_ptr_with_new_cookie` at the time `now`. -/
def buildPtrWithNewCookie (lb : LoadBalanceSticky) (now : Int) (ptr : Nat) :
    Option PointerToUpstream :=
  (lb.getServerIdFromIndex ptr).map fun upstreamId =>
    ⟨ptr, some ⟨lb.stickyConfig.buildStickyCookie now upstreamId⟩⟩

/-- The two lines that three arms of `get_ptr` repeat: the next round-robin pick, with a new
cookie naming it. -/
def rrWithNewCookie (lb : LoadBalanceSticky) (now : Int) (upstreams : List Upstream) :
    Option (PointerToUpstream × LoadBalanceSticky) :=
  ((lb.rrNextIndex upstreams).2.buildPtrWithNewCookie now (lb.rrNextIndex upstreams).1).map
    fun p => (p, (lb.rrNextIndex upstreams).2)

/-- `LoadBalanceSticky::get_ptr` at the time `now`, with the balancer after the call. -/
def getPtr (lb : LoadBalanceSticky) (now : Int) (reqInfo : Option LoadBalanceContext)
    (upstreams : List Upstream) : Option (PointerToUpstream × LoadBalanceSticky) :=
  match reqInfo with
  | none => lb.rrWithNewCookie now upstreams
  | some context =>
    match lb.getServerIndexFromId context.stickyCookie.value.value with
    | some index =>
      if (upstreams[index]?).any Upstream.isHealthy then some (⟨index, none⟩, lb)
      else lb.rrWithNewCookie now upstreams
    | none => lb.rrWithNewCookie now upstreams

end LoadBalanceSticky

/-! ### The id maps -/

theorem lookup_filter_ne (m : List (List Char × Nat)) {k k' : List Char} (hk : k' ≠ k) :
    (m.filter fun e => e.1 != k).lookup k' = m.lookup k' := by
  induction m with
  | nil => rfl
  | cons e rest ih =>
    by_cases he : e.1 = k
    · have hne : (k' == e.1) = false := by rw [he]; simpa using hk
      rw [List.filter_cons_of_neg (by simpa using he), ih, List.lookup_cons, hne]
    · rw [List.filter_cons_of_pos (by simpa using he), List.lookup_cons, List.lookup_cons, ih]

theorem lookup_hashMapInsert (m : List (List Char × Nat)) (k k' : List Char) (v : Nat) :
    (hashMapInsert m k v).lookup k' = if k' = k then some v else m.lookup k' := by
  unfold hashMapInsert
  by_cases hk : k' = k
  · subst hk
    simp
  · have hne : (k' == k) = false := by simpa using hk
    rw [if_neg hk, List.lookup_cons, hne, lookup_filter_ne m hk]

/-- With distinct keys, an entry is what its key looks up. -/
theorem lookup_eq_some_of_mem {l : List (List Char × Nat)} (hnd : (l.map Prod.fst).Nodup)
    {e : List Char × Nat} (he : e ∈ l) : l.lookup e.1 = some e.2 := by
  induction l with
  | nil => cases he
  | cons a rest ih =>
    rw [List.map_cons, List.nodup_cons] at hnd
    rcases List.mem_cons.mp he with rfl | he
    · rw [List.lookup_cons, beq_self_eq_true]
    · have hne : (e.1 == a.1) = false :=
        beq_eq_false_iff_ne.mpr fun h => hnd.1 (List.mem_map.mpr ⟨e, he, h⟩)
      rw [List.lookup_cons, hne]
      exact ih hnd.2 he

/-- Inserting entries with distinct keys: each key maps to its own value, and other keys keep
what the map had. -/
theorem lookup_foldl_hashMapInsert (l : List (List Char × Nat)) (hnd : (l.map Prod.fst).Nodup)
    (m : List (List Char × Nat)) (k : List Char) :
    (l.foldl (fun m p => hashMapInsert m p.1 p.2) m).lookup k = (l.lookup k).or (m.lookup k) := by
  induction l generalizing m with
  | nil => rfl
  | cons p rest ih =>
    rw [List.map_cons, List.nodup_cons] at hnd
    rw [List.foldl_cons, ih hnd.2, lookup_hashMapInsert, List.lookup_cons]
    by_cases hk : k = p.1
    · subst hk
      have hrest : rest.lookup p.1 = none := by
        rw [List.lookup_eq_none_iff]
        intro q hq
        exact bne_iff_ne.mpr fun h => hnd.1 (List.mem_map.mpr ⟨q, hq, h.symm⟩)
      simp [hrest]
    · have hne : (k == p.1) = false := by simpa using hk
      simp [hk, hne]

theorem lookup_zipIdx_of_nodup {ids : List (List Char)} (hnd : ids.Nodup) {i : Nat} {id : List Char}
    (hi : ids[i]? = some id) : (ids.zipIdx).lookup id = some i := by
  have hkeys : (ids.zipIdx.map Prod.fst).Nodup := by rwa [List.zipIdx_map_fst]
  exact lookup_eq_some_of_mem hkeys
    (List.mem_zipIdx_iff_getElem?.mpr (show ids[(id, i).2]? = some (id, i).1 from hi))

/-- With distinct ids, the id map sends the id of each index back to it. -/
theorem getServerIndexFromId_upstreamMaps (sha256 : List UInt8 → List UInt8)
    {upstreamVec : List Upstream} (hnd : (upstreamMaps sha256 upstreamVec).upstreamIndexMap.Nodup)
    {i : Nat} {id : List Char} (hi : (upstreamMaps sha256 upstreamVec).upstreamIndexMap[i]? = some id) :
    (upstreamMaps sha256 upstreamVec).upstreamIdMap.lookup id = some i := by
  have hkeys : ((upstreamMaps sha256 upstreamVec).upstreamIndexMap.zipIdx.map Prod.fst).Nodup := by
    rwa [List.zipIdx_map_fst]
  show ((upstreamMaps sha256 upstreamVec).upstreamIndexMap.zipIdx.foldl
    (fun m p => hashMapInsert m p.1 p.2) []).lookup id = some i
  rw [lookup_foldl_hashMapInsert _ hkeys, lookup_zipIdx_of_nodup hnd hi]
  rfl

namespace LoadBalanceSticky

/-! ### What `get_ptr` does -/

variable {lb lb' : LoadBalanceSticky} {now : Int} {upstreams : List Upstream}
  {p : PointerToUpstream}

theorem rrWithNewCookie_eq :
    lb.rrWithNewCookie now upstreams =
      (lb.getServerIdFromIndex (pickNthAvailableIndex upstreams lb.ptr)).map fun id =>
        (⟨pickNthAvailableIndex upstreams lb.ptr, some ⟨lb.stickyConfig.buildStickyCookie now id⟩⟩,
          { lb with ptr := (fetchAndAdvanceCounter lb.ptr).2 }) := by
  simp only [rrWithNewCookie, buildPtrWithNewCookie, Option.map_map]
  rfl

/-- The fallback: the pick of the counter, with a cookie naming the id of that index. -/
theorem rrWithNewCookie_eq_some (h : lb.rrWithNewCookie now upstreams = some (p, lb')) :
    p.ptr = pickNthAvailableIndex upstreams lb.ptr ∧
      lb' = { lb with ptr := (fetchAndAdvanceCounter lb.ptr).2 } ∧
      ∃ id, lb.getServerIdFromIndex p.ptr = some id ∧
        p.context = some ⟨lb.stickyConfig.buildStickyCookie now id⟩ := by
  rw [rrWithNewCookie_eq, Option.map_eq_some_iff] at h
  obtain ⟨id, hid, hp⟩ := h
  cases hp
  exact ⟨rfl, rfl, id, hid, rfl⟩

/-- What `get_ptr` returns: the upstream of the cookie, healthy and without a new cookie, or the
fallback. -/
theorem getPtr_cases {reqInfo : Option LoadBalanceContext}
    (h : lb.getPtr now reqInfo upstreams = some (p, lb')) :
    (∃ context i u, reqInfo = some context ∧
        lb.getServerIndexFromId context.stickyCookie.value.value = some i ∧
        upstreams[i]? = some u ∧ u.isHealthy = true ∧ p = ⟨i, none⟩ ∧ lb' = lb) ∨
      lb.rrWithNewCookie now upstreams = some (p, lb') := by
  unfold getPtr at h
  split at h
  · exact .inr h
  · next context =>
    split at h
    · next i hi =>
      split at h
      · next hh =>
        cases hu : upstreams[i]? with
        | none => simp [hu] at hh
        | some u =>
          rw [hu, Option.any_some] at hh
          cases h
          exact .inl ⟨context, i, u, rfl, hi, hu, hh, rfl, rfl⟩
      · exact .inr h
    · exact .inr h

/-- A cookie naming a healthy upstream keeps the request there, with no new cookie and the
counter untouched. -/
theorem getPtr_sticky {context : LoadBalanceContext} {i : Nat} {u : Upstream}
    (hi : lb.getServerIndexFromId context.stickyCookie.value.value = some i)
    (hu : upstreams[i]? = some u) (hh : u.isHealthy = true) :
    lb.getPtr now (some context) upstreams = some (⟨i, none⟩, lb) := by
  simp [getPtr, hi, hu, hh]

/-- With as many ids as upstreams, `get_ptr` never panics, and it returns an index of the list
that is healthy whenever some upstream is. -/
theorem getPtr_spec (hlen : lb.upstreamMaps.upstreamIndexMap.length = upstreams.length)
    (hne : upstreams ≠ []) (reqInfo : Option LoadBalanceContext) :
    ∃ p lb', lb.getPtr now reqInfo upstreams = some (p, lb') ∧ p.ptr < upstreams.length ∧
      ((∃ u ∈ upstreams, u.isHealthy = true) →
        ∃ u, upstreams[p.ptr]? = some u ∧ u.isHealthy = true) := by
  have hpick := pickNthAvailableIndex_spec hne lb.ptr
  have hfallback : ∃ p lb', lb.rrWithNewCookie now upstreams = some (p, lb') ∧
      p.ptr = pickNthAvailableIndex upstreams lb.ptr := by
    have hlt : pickNthAvailableIndex upstreams lb.ptr < lb.upstreamMaps.upstreamIndexMap.length :=
      hlen ▸ hpick.1
    have hid : lb.getServerIdFromIndex (pickNthAvailableIndex upstreams lb.ptr) =
        some lb.upstreamMaps.upstreamIndexMap[pickNthAvailableIndex upstreams lb.ptr] :=
      List.getElem?_eq_getElem hlt
    rw [rrWithNewCookie_eq, hid]
    exact ⟨_, _, rfl, rfl⟩
  obtain ⟨q, lb'', hq, hqptr⟩ := hfallback
  unfold getPtr
  split
  · exact ⟨q, lb'', hq, hqptr ▸ hpick.1, hqptr ▸ hpick.2⟩
  · split
    · next i _ =>
      split
      · next hh =>
        cases hu : upstreams[i]? with
        | none => simp [hu] at hh
        | some u =>
          rw [hu, Option.any_some] at hh
          exact ⟨⟨i, none⟩, lb, rfl, (List.getElem?_eq_some_iff.mp hu).1,
            fun _ => ⟨u, hu, hh⟩⟩
      · exact ⟨q, lb'', hq, hqptr ▸ hpick.1, hqptr ▸ hpick.2⟩
    · exact ⟨q, lb'', hq, hqptr ▸ hpick.1, hqptr ▸ hpick.2⟩

end LoadBalanceSticky

end Rpxy.StickyLoadBalance
