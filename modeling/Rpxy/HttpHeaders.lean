import Mathlib.Data.List.Basic
import Rpxy.HashMapModel
import Rpxy.RustVec

/-!
# Header values and header maps of the `http` crate

A `HeaderValue` is a byte string whose every byte is one that
`HeaderValue::from_bytes` accepts (32 to 255 except 127, and tab); the check is a
field, so an invalid value cannot be built. `to_str` succeeds only on visible ASCII
and tab. A `HeaderMap` is modelled by its `entries` vector: one bucket per name, in vector order,
with the name's values in order. `append` adds a value to the name's bucket or a bucket at the
end, `insert` replaces the bucket's values in place or adds a bucket at the end, and `remove`
takes the bucket out with `swap_remove`, so that the last bucket moves into its place. Iteration
goes bucket by bucket. Header names are the lowercase strings that `HeaderName` stores.
-/

namespace Rpxy.HttpHeaders

/-- A byte that `HeaderValue::from_bytes` accepts. -/
def isValidHeaderByte (b : UInt8) : Bool := (32 ≤ b && b != 127) || b == 9

/-- A byte that `HeaderValue::to_str` accepts: visible ASCII or tab. -/
def isVisibleAsciiByte (b : UInt8) : Bool := (32 ≤ b && b < 127) || b == 9

/-- A character that a visible-ASCII header text may hold: the characters whose
UTF-8 byte `to_str` accepts. -/
def isHeaderTextChar (c : Char) : Bool := (32 ≤ c.toNat && c.toNat < 127) || c.toNat == 9

/-- `http::HeaderValue`. -/
structure HeaderValue where
  /-- `HeaderValue::as_bytes`. -/
  bytes : List UInt8
  /-- Every byte is one a header value may hold. -/
  valid : ∀ b ∈ bytes, isValidHeaderByte b = true

instance : DecidableEq HeaderValue := fun a b =>
  decidable_of_iff (a.bytes = b.bytes) (by cases a; cases b; simp)

/-- `InvalidHeaderValue`, by its `Display` text. -/
def invalidHeaderValueText : String := "failed to parse header value"

/-- `ToStrError`, by its `Display` text. -/
def toStrErrorText : String := "failed to convert header to a str"

/-- `HeaderValue::from_bytes`. -/
def HeaderValue.fromBytes (bytes : List UInt8) : Except String HeaderValue :=
  if h : bytes.all isValidHeaderByte then .ok ⟨bytes, List.all_eq_true.mp h⟩
  else .error invalidHeaderValueText

theorem HeaderValue.fromBytes_of_valid {bytes : List UInt8} (h : ∀ b ∈ bytes, isValidHeaderByte b = true) :
    HeaderValue.fromBytes bytes = .ok ⟨bytes, h⟩ := by
  rw [HeaderValue.fromBytes, dif_pos (List.all_eq_true.mpr h)]

/-- The UTF-8 bytes of a character list. -/
def utf8Bytes (s : List Char) : List UInt8 := s.flatMap String.utf8EncodeChar

/-- `HeaderValue::from_str`, and `HeaderValue::try_from` of a `String`: the same byte check. -/
def HeaderValue.fromStr (s : List Char) : Except String HeaderValue :=
  HeaderValue.fromBytes (utf8Bytes s)

/-- `HeaderValue::to_str`. -/
def HeaderValue.toStr (v : HeaderValue) : Except String (List Char) :=
  if v.bytes.all isVisibleAsciiByte then .ok (v.bytes.map fun b => Char.ofNat b.toNat)
  else .error toStrErrorText

/-- `http::HeaderMap`, by its `entries` vector: one bucket per name, holding the name's values in
order (the bucket's first value, then the extra values its links chain). -/
structure HeaderMap where
  /-- The buckets of `entries`, in vector order. -/
  buckets : List (List Char × List HeaderValue)
  /-- The index finds a name in one bucket at most. -/
  keys_nodup : (buckets.map Prod.fst).Nodup
  /-- A bucket holds at least its first value. -/
  values_ne_nil : ∀ b ∈ buckets, b.2 ≠ []

instance : DecidableEq HeaderMap := fun a b =>
  decidable_of_iff (a.buckets = b.buckets) (by cases a; cases b; simp)

namespace HeaderMap

open HashMapModel RustVec

variable {bs : List (List Char × List HeaderValue)}

theorem keys_nodup_swapRemove (h : (bs.map Prod.fst).Nodup) (i : Nat) : ((swapRemove bs i).map Prod.fst).Nodup := by
  obtain ⟨l', hp, hs⟩ := swapRemove_subperm bs i
  exact (hp.map Prod.fst).nodup_iff.mpr (h.sublist (hs.map Prod.fst))

theorem values_ne_nil_swapRemove (h : ∀ b ∈ bs, b.2 ≠ []) (i : Nat) : ∀ b ∈ swapRemove bs i, b.2 ≠ [] := by
  obtain ⟨l', hp, hs⟩ := swapRemove_subperm bs i
  exact fun b hb => h b (hs.subset (hp.subset hb))

theorem keys_nodup_update (h : (bs.map Prod.fst).Nodup) (k : List Char) (f : List HeaderValue → List HeaderValue) :
    ((update bs k f).map Prod.fst).Nodup := by
  rwa [keys_update]

theorem values_ne_nil_update (h : ∀ b ∈ bs, b.2 ≠ []) (k : List Char) {f : List HeaderValue → List HeaderValue}
    (hf : ∀ vs, vs ≠ [] → f vs ≠ []) : ∀ b ∈ update bs k f, b.2 ≠ [] := by
  intro b hb
  obtain ⟨e, he, rfl⟩ := List.mem_map.mp hb
  split
  · exact hf e.2 (h e he)
  · exact h e he

theorem keys_nodup_concat (h : (bs.map Prod.fst).Nodup) {k : List Char} (hk : bs.lookup k = none)
    (vs : List HeaderValue) : ((bs ++ [(k, vs)]).map Prod.fst).Nodup := by
  rw [List.map_append, List.nodup_append]
  refine ⟨h, List.nodup_singleton k, ?_⟩
  intro a ha b hb hab
  simp only [List.map_cons, List.map_nil, List.mem_singleton] at hb
  subst hb hab
  obtain ⟨e, he, rfl⟩ := List.mem_map.mp ha
  rw [List.lookup_eq_none_iff] at hk
  simp at hk
  exact hk e.1 e.2 he rfl

theorem values_ne_nil_concat (h : ∀ b ∈ bs, b.2 ≠ []) (k : List Char) (v : HeaderValue) :
    ∀ b ∈ bs ++ [(k, [v])], b.2 ≠ [] := by
  intro b hb
  rcases List.mem_append.mp hb with hb | hb
  · exact h b hb
  · rw [List.mem_singleton.mp hb]
    exact List.cons_ne_nil v []

theorem append_value_ne_nil (v : HeaderValue) (vs : List HeaderValue) (_ : vs ≠ []) : vs ++ [v] ≠ [] :=
  List.concat_ne_nil v vs

theorem singleton_ne_nil (v : HeaderValue) (vs : List HeaderValue) (_ : vs ≠ []) : [v] ≠ [] :=
  List.cons_ne_nil v []

theorem map_values_ne_nil (f : HeaderValue → HeaderValue) (vs : List HeaderValue) (h : vs ≠ []) : vs.map f ≠ [] :=
  by simpa using h

/-- `HeaderMap::new`. -/
def new : HeaderMap := ⟨[], List.nodup_nil, fun _ h => nomatch h⟩

/-- `HeaderMap::get_all`: the values of the name's bucket, in order. -/
def getAll (m : HeaderMap) (k : List Char) : List HeaderValue := (m.buckets.lookup k).getD []

/-- `HeaderMap::get`: the first value of a name. -/
def get (m : HeaderMap) (k : List Char) : Option HeaderValue := (m.getAll k).head?

/-- `HeaderMap::contains_key`. -/
def containsKey (m : HeaderMap) (k : List Char) : Bool := (m.buckets.lookup k).isSome

/-- The field lines in the order of `HeaderMap::iter`: bucket by bucket, each name's values in
order. -/
def entries (m : HeaderMap) : List (List Char × HeaderValue) := m.buckets.flatMap fun b => b.2.map (b.1, ·)

/-- `HeaderMap::remove`: the name's bucket is taken out of `entries` with `swap_remove`, so the
last bucket moves into its place. -/
def remove (m : HeaderMap) (k : List Char) : HeaderMap :=
  match m.buckets.findIdx? fun b => b.1 == k with
  | none => m
  | some i => ⟨swapRemove m.buckets i, keys_nodup_swapRemove m.keys_nodup i, values_ne_nil_swapRemove m.values_ne_nil i⟩

/-- A new bucket at the end of `entries`, for a name that has none. -/
def push (m : HeaderMap) (k : List Char) (v : HeaderValue) (h : m.buckets.lookup k = none) : HeaderMap :=
  ⟨m.buckets ++ [(k, [v])], keys_nodup_concat m.keys_nodup h [v], values_ne_nil_concat m.values_ne_nil k v⟩

/-- `HeaderMap::append`: one more value at the end of the name's bucket, or a new bucket at the
end of `entries`. -/
def append (m : HeaderMap) (k : List Char) (v : HeaderValue) : HeaderMap :=
  match h : m.buckets.lookup k with
  | some _ => ⟨update m.buckets k (· ++ [v]), keys_nodup_update m.keys_nodup k _,
      values_ne_nil_update m.values_ne_nil k (append_value_ne_nil v)⟩
  | none => m.push k v h

/-- `HeaderMap::insert`: the name's bucket keeps its place and holds exactly the new value, or a
new bucket goes at the end of `entries`. -/
def insert (m : HeaderMap) (k : List Char) (v : HeaderValue) : HeaderMap :=
  match h : m.buckets.lookup k with
  | some _ => ⟨update m.buckets k fun _ => [v], keys_nodup_update m.keys_nodup k _,
      values_ne_nil_update m.values_ne_nil k (singleton_ne_nil v)⟩
  | none => m.push k v h

/-- `iter_mut` over the name's entry: each of its values changed by `f`, in place. -/
def mapValues (m : HeaderMap) (k : List Char) (f : HeaderValue → HeaderValue) : HeaderMap :=
  ⟨update m.buckets k (List.map f), keys_nodup_update m.keys_nodup k _,
    values_ne_nil_update m.values_ne_nil k (map_values_ne_nil f)⟩

/-- `entry(k).or_insert(v)`: insert only when the name is absent. -/
def orInsert (m : HeaderMap) (k : List Char) (v : HeaderValue) : HeaderMap :=
  if m.containsKey k then m else m.append k v

/-- `HeaderMap::from_iter`: the lines appended in turn. -/
def ofEntries (es : List (List Char × HeaderValue)) : HeaderMap :=
  es.foldl (fun m e => m.append e.1 e.2) new

@[simp]
theorem getAll_new (k : List Char) : new.getAll k = [] := rfl

theorem containsKey_iff (m : HeaderMap) (k : List Char) : m.containsKey k = true ↔ m.getAll k ≠ [] := by
  unfold containsKey getAll
  cases h : m.buckets.lookup k with
  | none => simp
  | some vs =>
    have hvs : vs ≠ [] := m.values_ne_nil (k, vs) (mem_of_lookup_eq_some h)
    simpa using hvs

/-- `remove` takes out the name's bucket and keeps the others, in some order. -/
theorem buckets_remove_perm (m : HeaderMap) (k : List Char) :
    (m.remove k).buckets.Perm (m.buckets.filter fun b => b.1 != k) := by
  unfold remove
  split
  · rename_i hnone
    rw [List.findIdx?_eq_none_iff] at hnone
    rw [List.filter_eq_self.mpr fun b hb => by simpa using hnone b hb]
  · rename_i i hsome
    obtain ⟨hi, hk, -⟩ := List.findIdx?_eq_some_iff_getElem.mp hsome
    have hkey : (m.buckets.get ⟨i, hi⟩).1 = k := by simpa using hk
    have hp := swapRemove_perm_filter m.keys_nodup hi
    rwa [hkey] at hp

@[simp]
theorem getAll_remove_self (m : HeaderMap) (k : List Char) : (m.remove k).getAll k = [] := by
  have hnd : ((m.buckets.filter fun b => b.1 != k).map Prod.fst).Nodup :=
    m.keys_nodup.sublist (List.filter_sublist.map Prod.fst)
  rw [getAll, lookup_eq_of_perm (buckets_remove_perm m k) hnd, lookup_filter_self]
  rfl

@[simp]
theorem getAll_remove_ne (m : HeaderMap) {k k' : List Char} (h : k' ≠ k) :
    (m.remove k).getAll k' = m.getAll k' := by
  have hnd : ((m.buckets.filter fun b => b.1 != k).map Prod.fst).Nodup :=
    m.keys_nodup.sublist (List.filter_sublist.map Prod.fst)
  rw [getAll, lookup_eq_of_perm (buckets_remove_perm m k) hnd, lookup_filter_ne _ h]
  rfl

@[simp]
theorem getAll_append_self (m : HeaderMap) (k : List Char) (v : HeaderValue) :
    (m.append k v).getAll k = m.getAll k ++ [v] := by
  unfold append getAll
  split
  · rename_i vs h
    simp [lookup_update_self, h]
  · rename_i h
    simp [push, lookup_concat_self [v] h, h]

@[simp]
theorem getAll_append_ne (m : HeaderMap) {k k' : List Char} (v : HeaderValue) (h : k' ≠ k) :
    (m.append k v).getAll k' = m.getAll k' := by
  unfold append getAll
  split
  · rw [lookup_update_ne _ _ h]
  · dsimp only [push]
    rw [lookup_concat_ne _ [v] h]

@[simp]
theorem getAll_insert_self (m : HeaderMap) (k : List Char) (v : HeaderValue) :
    (m.insert k v).getAll k = [v] := by
  unfold insert getAll
  split
  · rename_i vs h
    simp [lookup_update_self, h]
  · rename_i h
    simp [push, lookup_concat_self [v] h]

@[simp]
theorem getAll_insert_ne (m : HeaderMap) {k k' : List Char} (v : HeaderValue) (h : k' ≠ k) :
    (m.insert k v).getAll k' = m.getAll k' := by
  unfold insert getAll
  split
  · rw [lookup_update_ne _ _ h]
  · dsimp only [push]
    rw [lookup_concat_ne _ [v] h]

@[simp]
theorem getAll_mapValues_self (m : HeaderMap) (k : List Char) (f : HeaderValue → HeaderValue) :
    (m.mapValues k f).getAll k = (m.getAll k).map f := by
  unfold mapValues getAll
  rw [lookup_update_self]
  cases m.buckets.lookup k <;> rfl

@[simp]
theorem getAll_mapValues_ne (m : HeaderMap) {k k' : List Char} (f : HeaderValue → HeaderValue) (h : k' ≠ k) :
    (m.mapValues k f).getAll k' = m.getAll k' := by
  unfold mapValues getAll
  rw [lookup_update_ne _ _ h]

theorem getAll_orInsert_ne (m : HeaderMap) {k k' : List Char} (v : HeaderValue) (h : k' ≠ k) :
    (m.orInsert k v).getAll k' = m.getAll k' := by
  unfold orInsert
  split
  · rfl
  · exact getAll_append_ne m v h

/-- A line is in the iteration exactly when its value is among its name's values. -/
theorem mem_entries {m : HeaderMap} {k : List Char} {v : HeaderValue} : (k, v) ∈ m.entries ↔ v ∈ m.getAll k := by
  unfold entries getAll
  constructor
  · intro h
    obtain ⟨b, hb, hv⟩ := List.mem_flatMap.mp h
    obtain ⟨w, hw, hkw⟩ := List.mem_map.mp hv
    simp only [Prod.mk.injEq] at hkw
    obtain ⟨rfl, rfl⟩ := hkw
    rw [lookup_eq_some_of_nodup m.keys_nodup hb]
    exact hw
  · intro h
    cases hl : m.buckets.lookup k with
    | none => rw [hl] at h; cases h
    | some vs =>
      rw [hl] at h
      exact List.mem_flatMap.mpr ⟨(k, vs), mem_of_lookup_eq_some hl, List.mem_map_of_mem h⟩

theorem flatMap_filter_key (bs : List (List Char × List HeaderValue)) (k : List Char) :
    (bs.filter fun b => b.1 != k).flatMap (fun b => b.2.map (b.1, ·)) =
      (bs.flatMap fun b => b.2.map (b.1, ·)).filter fun e => e.1 != k := by
  induction bs with
  | nil => rfl
  | cons b rest ih =>
    rw [List.flatMap_cons, List.filter_append, ← ih]
    by_cases hb : b.1 = k
    · rw [List.filter_cons_of_neg (by simpa using hb)]
      simp [hb]
    · rw [List.filter_cons_of_pos (by simpa using hb), List.flatMap_cons]
      congr 1
      exact (List.filter_eq_self.mpr fun e he => by
        obtain ⟨x, -, rfl⟩ := List.mem_map.mp he
        simpa using hb).symm

/-- The lines that `remove` keeps are the other names' lines, in some order. -/
theorem entries_remove_perm (m : HeaderMap) (k : List Char) :
    (m.remove k).entries.Perm (m.entries.filter fun e => e.1 != k) := by
  unfold entries
  rw [← flatMap_filter_key]
  exact (buckets_remove_perm m k).flatMap_right _

/-- `m'` is `m` with only the names that pass `q`: a kept name has its values in order, any other
name has none, and the lines are those of `m` whose name passes, in some order. -/
structure Keeps (m' m : HeaderMap) (q : List Char → Bool) : Prop where
  /-- Each name's values after the change. -/
  getAll_eq : ∀ k, m'.getAll k = if q k then m.getAll k else []
  /-- The iteration, up to the order of the names. -/
  entries_perm : m'.entries.Perm (m.entries.filter fun e => q e.1)

namespace Keeps

variable {m m' m'' : HeaderMap} {q q' : List Char → Bool}

theorem refl (m : HeaderMap) : Keeps m m fun _ => true where
  getAll_eq _ := rfl
  entries_perm := by rw [List.filter_true]

/-- A name without values can be dropped from the names kept. -/
theorem of_getAll_nil {k : List Char} (h : m.getAll k = []) : Keeps m m fun k' => k' != k where
  getAll_eq k' := by
    by_cases hk : k' = k
    · simp [hk, h]
    · simp [hk]
  entries_perm := by
    rw [List.filter_eq_self.mpr]
    rintro ⟨k', v⟩ he
    have hv := mem_entries.mp he
    have hk : k' ≠ k := fun hk => by rw [hk, h] at hv; cases hv
    simpa using hk

theorem remove (m : HeaderMap) (k : List Char) : Keeps (m.remove k) m fun k' => k' != k where
  getAll_eq k' := by
    by_cases hk : k' = k
    · simp [hk]
    · simp [hk, getAll_remove_ne m hk]
  entries_perm := entries_remove_perm m k

/-- Keeping names twice keeps those that pass both tests. -/
theorem trans (h₁ : Keeps m' m q) (h₂ : Keeps m'' m' q') : Keeps m'' m fun k => q k && q' k where
  getAll_eq k := by
    rw [h₂.getAll_eq, h₁.getAll_eq]
    cases q k <;> cases q' k <;> rfl
  entries_perm := by
    refine (h₂.entries_perm.trans (h₁.entries_perm.filter _)).trans ?_
    rw [List.filter_filter]
    exact List.Perm.of_eq (List.filter_congr fun e _ => Bool.and_comm _ _)

theorem congr (h : Keeps m' m q) (hq : ∀ k, q k = q' k) : Keeps m' m q' := by
  have hfun : q = q' := funext hq
  exact hfun ▸ h

/-- A name that passes keeps its values. -/
theorem getAll_of_pass (h : Keeps m' m q) {k : List Char} (hk : q k = true) : m'.getAll k = m.getAll k := by
  rw [h.getAll_eq, if_pos hk]

/-- No line of a name that fails is left. -/
theorem pass_of_mem (h : Keeps m' m q) {e : List Char × HeaderValue} (he : e ∈ m'.entries) : q e.1 = true :=
  (List.mem_filter.mp (h.entries_perm.subset he)).2

end Keeps

end HeaderMap

/-! ### Visible-ASCII text through a header value -/

theorem utf8EncodeChar_of_lt {c : Char} (h : c.toNat < 128) :
    String.utf8EncodeChar c = [UInt8.ofNat c.toNat] := by
  unfold String.utf8EncodeChar
  rw [if_pos (show c.val.toNat ≤ 127 from Nat.le_of_lt_succ h)]
  rfl

/-- The codes of visible-ASCII text are bytes that a header value holds and `to_str` accepts. -/
theorem byte_of_headerText_code : ∀ n < 128, (32 ≤ n ∧ n < 127 ∨ n = 9) →
    isValidHeaderByte (UInt8.ofNat n) = true ∧ isVisibleAsciiByte (UInt8.ofNat n) = true := by
  decide

theorem char_ofNat_toNat_of_lt {n : Nat} (h : n < 128) : (Char.ofNat n).toNat = n := by
  have hv : n.isValidChar := Or.inl (by omega)
  rw [Char.ofNat, dif_pos hv]
  rfl

theorem visibleAsciiByte_code {b : UInt8} (h : isVisibleAsciiByte b = true) :
    32 ≤ b.toNat ∧ b.toNat < 127 ∨ b.toNat = 9 := by
  simp only [isVisibleAsciiByte, Bool.or_eq_true, Bool.and_eq_true, decide_eq_true_eq,
    beq_iff_eq] at h
  rcases h with ⟨h1, h2⟩ | h
  · left
    exact ⟨UInt8.le_iff_toNat_le.mp h1, UInt8.lt_iff_toNat_lt.mp h2⟩
  · right
    rw [h]
    rfl

/-- A byte that `to_str` accepts decodes to a visible-ASCII character. -/
theorem headerText_of_visible_byte {b : UInt8} (h : isVisibleAsciiByte b = true) :
    isHeaderTextChar (Char.ofNat b.toNat) = true := by
  have hcode := visibleAsciiByte_code h
  have hchar : (Char.ofNat b.toNat).toNat = b.toNat := char_ofNat_toNat_of_lt (by omega)
  simp only [isHeaderTextChar, hchar, Bool.or_eq_true, Bool.and_eq_true, decide_eq_true_eq,
    beq_iff_eq]
  omega

theorem headerTextChar_code {c : Char} (h : isHeaderTextChar c = true) :
    c.toNat < 128 ∧ (32 ≤ c.toNat ∧ c.toNat < 127 ∨ c.toNat = 9) := by
  simp only [isHeaderTextChar, Bool.or_eq_true, Bool.and_eq_true, decide_eq_true_eq,
    beq_iff_eq] at h
  omega

theorem headerTextChar_byte {c : Char} (h : isHeaderTextChar c = true) :
    isValidHeaderByte (UInt8.ofNat c.toNat) = true ∧ isVisibleAsciiByte (UInt8.ofNat c.toNat) = true ∧
      Char.ofNat (UInt8.ofNat c.toNat).toNat = c := by
  obtain ⟨hlt, hcode⟩ := headerTextChar_code h
  obtain ⟨hv, hs⟩ := byte_of_headerText_code c.toNat hlt hcode
  have hnat : (UInt8.ofNat c.toNat).toNat = c.toNat := by
    rw [UInt8.toNat_ofNat', Nat.mod_eq_of_lt (by omega)]
  exact ⟨hv, hs, by rw [hnat, Char.ofNat_toNat]⟩

/-- The UTF-8 bytes of visible-ASCII text are its character codes. -/
theorem utf8Bytes_of_headerText {s : List Char} (h : ∀ c ∈ s, isHeaderTextChar c = true) :
    utf8Bytes s = s.map fun c => UInt8.ofNat c.toNat := by
  induction s with
  | nil => rfl
  | cons c cs ih =>
    have hlt := (headerTextChar_code (h c (by simp))).1
    simp only [utf8Bytes, List.flatMap_cons, List.map_cons] at ih ⊢
    rw [utf8EncodeChar_of_lt hlt, ih (fun d hd => h d (by simp [hd]))]
    rfl

theorem validBytes_of_headerText {s : List Char} (h : ∀ c ∈ s, isHeaderTextChar c = true) :
    ∀ b ∈ utf8Bytes s, isValidHeaderByte b = true := by
  rw [utf8Bytes_of_headerText h]
  simp only [List.mem_map, forall_exists_index, and_imp]
  rintro b c hc rfl
  exact (headerTextChar_byte (h c hc)).1

/-- `HeaderValue::from_static` and `From<u16>`: a value made from visible-ASCII text, which
the source only ever passes there. -/
def HeaderValue.ofHeaderText (s : List Char) (h : ∀ c ∈ s, isHeaderTextChar c = true) : HeaderValue :=
  ⟨utf8Bytes s, validBytes_of_headerText h⟩

/-- Visible-ASCII text makes a header value, and `to_str` gives the text back. -/
theorem fromStr_toStr {s : List Char} (h : ∀ c ∈ s, isHeaderTextChar c = true) :
    ∃ v, HeaderValue.fromStr s = .ok v ∧ v.toStr = .ok s := by
  have hbytes := utf8Bytes_of_headerText h
  have hvalid := validBytes_of_headerText h
  refine ⟨⟨utf8Bytes s, hvalid⟩, by rw [HeaderValue.fromStr, HeaderValue.fromBytes_of_valid hvalid], ?_⟩
  have hvis : (utf8Bytes s).all isVisibleAsciiByte = true := by
    rw [hbytes, List.all_eq_true]
    simp only [List.mem_map, forall_exists_index, and_imp]
    rintro b c hc rfl
    exact (headerTextChar_byte (h c hc)).2.1
  simp only [HeaderValue.toStr, hvis, if_true, Except.ok.injEq]
  rw [hbytes, List.map_map]
  conv => rhs; rw [← List.map_id s]
  apply List.map_congr_left
  intro c hc
  exact (headerTextChar_byte (h c hc)).2.2

theorem fromStr_eq_ofHeaderText {s : List Char} (h : ∀ c ∈ s, isHeaderTextChar c = true) :
    HeaderValue.fromStr s = .ok (HeaderValue.ofHeaderText s h) := by
  rw [HeaderValue.fromStr, HeaderValue.fromBytes_of_valid (validBytes_of_headerText h)]
  rfl

theorem toStr_ofHeaderText {s : List Char} (h : ∀ c ∈ s, isHeaderTextChar c = true) :
    (HeaderValue.ofHeaderText s h).toStr = .ok s := by
  obtain ⟨v, hv, hs⟩ := fromStr_toStr h
  rw [fromStr_eq_ofHeaderText h, Except.ok.injEq] at hv
  rw [hv]
  exact hs

/-- What `to_str` returns is visible-ASCII text. -/
theorem toStr_headerText {v : HeaderValue} {s : List Char} (h : v.toStr = .ok s) :
    ∀ c ∈ s, isHeaderTextChar c = true := by
  unfold HeaderValue.toStr at h
  split at h
  · rename_i hall
    simp only [Except.ok.injEq] at h
    subst h
    simp only [List.mem_map, forall_exists_index, and_imp]
    rintro c b hb rfl
    exact headerText_of_visible_byte (List.all_eq_true.mp hall b hb)
  · cases h

end Rpxy.HttpHeaders
