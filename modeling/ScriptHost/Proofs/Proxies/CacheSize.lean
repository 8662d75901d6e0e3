import ScriptHost.Proofs.Instants.Ordered

/-!
# The size of the proxy cache

The cache of a binding keeps an entry for a proxy that is gone until it is cleaned, and it is cleaned only
when its size is a power of two from sixty-four on. It does not leak all the same: its size is at most
sixty-four, or at most twice the greatest number of cached proxies that were ever alive at once.

The size alone is no invariant. What carries the induction is the band that the size is in
(`ProxyCache.Banded`): the cache is within a power of two, and that is the smallest one or at most twice the
peak. Only an entry that is written into a full band can leave it, and then the cache has just been cleaned,
so that a band that is still full is full of living proxies (`ProxyCache.Banded.insert`).

A run of a cache is any sequence of worlds between which an entry is written, whatever its object and its
proxy, or the cache stays as it is while proxies die (`CacheStep`). The conversion of an object takes such a
step at most once (`toScript_wraps`), sessions change their caches in no other way (`CachePath`), and they have
no proxy in two entries.
-/

set_option autoImplicit false

namespace ScriptHost

open Act

/-! ### One cache -/

namespace ProxyCache

variable {c : ProxyCache} {live : UserdataRef → Bool} {e : Nat × UserdataRef} {peak peak' : Nat}

/-- The entries whose proxies are alive. -/
def living (c : ProxyCache) (live : UserdataRef → Bool) : ProxyCache := c.filter fun e => live e.2

/-- Powers of two are recognised. -/
theorem isPowerOfTwo_two_pow (k : Nat) : isPowerOfTwo (2 ^ k) = true := by
  rw [isPowerOfTwo, Nat.log2_two_pow, Nat.one_shiftLeft]
  exact beq_self_eq_true _

/-- **Cleaning never removes an entry whose proxy is alive.** -/
theorem mem_clean (he : e ∈ c) (hlive : live e.2 = true) : e ∈ c.clean live := by
  unfold clean
  split
  · exact List.mem_filter.mpr ⟨he, hlive⟩
  · exact he

/-- Cleaning removes entries and does nothing else. -/
theorem clean_sublist (c : ProxyCache) (live : UserdataRef → Bool) : (c.clean live).Sublist c := by
  unfold clean
  split
  · exact List.filter_sublist
  · exact List.Sublist.refl c

/-- An entry of another address stays. -/
theorem mem_put_of_ne {a : Nat} {u : UserdataRef} (he : e ∈ c) (hne : e.1 ≠ a) : e ∈ c.put a u :=
  List.mem_cons_of_mem _ (List.mem_filter.mpr ⟨he, bne_iff_ne.mpr hne⟩)

/-- A new entry makes the cache longer by one at most. -/
theorem length_put_le (c : ProxyCache) (a : Nat) (u : UserdataRef) :
    (c.put a u).length ≤ c.length + 1 :=
  Nat.succ_le_succ (List.length_filter_le _ c)

/-- **No address has two entries, and no proxy.** -/
structure Distinct (c : ProxyCache) : Prop where
  addresses : (c.map Prod.fst).Nodup
  proxies : (c.map Prod.snd).Nodup

/-- An empty cache has no two entries. -/
theorem distinct_nil : Distinct [] := ⟨List.nodup_nil, List.nodup_nil⟩

/-- It stays like that when a proxy is cached that was not. -/
theorem Distinct.insert (h : c.Distinct) (a : Nat) {u : UserdataRef} (hu : ∀ e ∈ c, e.2 ≠ u) :
    ((c.clean live).put a u).Distinct := by
  have hrest : ((c.clean live).filter fun e => e.1 != a).Sublist c :=
    List.filter_sublist.trans (c.clean_sublist live)
  constructor
  · refine List.nodup_cons.mpr ⟨fun ha => ?_, h.addresses.sublist (hrest.map _)⟩
    obtain ⟨e, he, heq⟩ := List.mem_map.mp ha
    exact bne_iff_ne.mp (List.mem_filter.mp he).2 heq
  · refine List.nodup_cons.mpr ⟨fun hmem => ?_, h.proxies.sublist (hrest.map _)⟩
    obtain ⟨e, he, heq⟩ := List.mem_map.mp hmem
    exact hu e (hrest.subset he) heq

/-- The size from which on the cache is cleaned, so many times doubled. -/
def band (k : Nat) : Nat := cleaningSize * 2 ^ k

/-- Each band is twice as wide as the one before. -/
theorem band_succ (k : Nat) : band (k + 1) = 2 * band k := by
  rw [band, band, Nat.pow_succ']
  exact Nat.mul_left_comm _ _ _

/-- The smallest one is the size from which on a cache is cleaned. -/
theorem cleaningSize_le_band (k : Nat) : cleaningSize ≤ band k :=
  Nat.le_mul_of_pos_right _ (Nat.two_pow_pos k)

/-- The width of a band is a power of two, so a full one is cleaned. -/
theorem isPowerOfTwo_band (k : Nat) : isPowerOfTwo (band k) = true := by
  have hband : band k = 2 ^ (6 + k) := (Nat.pow_add 2 6 k).symm
  rw [hband]
  exact isPowerOfTwo_two_pow _

/-- **A cache that fills its band is cleaned.** -/
theorem clean_of_full {k : Nat} (h : c.length = band k) :
    c.clean live = c.living live := by
  have hcleaned : (decide (cleaningSize ≤ c.length) && isPowerOfTwo c.length) = true := by
    rw [h, isPowerOfTwo_band, decide_eq_true (cleaningSize_le_band k), Bool.and_self]
  exact if_pos hcleaned

/-- **The cache is within a band** that is the smallest one, or at most twice the peak. -/
def Banded (c : ProxyCache) (peak : Nat) : Prop :=
  ∃ k, c.length ≤ band k ∧ (k = 0 ∨ band k ≤ 2 * peak)

/-- An empty cache is within the smallest band. -/
theorem banded_nil (peak : Nat) : Banded [] peak := ⟨0, Nat.zero_le _, .inl rfl⟩

/-- A higher peak allows wider bands. -/
theorem Banded.mono (h : c.Banded peak) (hpeak : peak ≤ peak') : c.Banded peak' := by
  obtain ⟨k, hlength, hband⟩ := h
  exact ⟨k, hlength, hband.imp_right fun hle => hle.trans (Nat.mul_le_mul_left 2 hpeak)⟩

/-- What is banded is bounded. -/
theorem Banded.length_le (h : c.Banded peak) : c.length ≤ max 64 (2 * peak) := by
  obtain ⟨k, hlength, rfl | hband⟩ := h
  · exact hlength.trans (le_max_left _ _)
  · exact (hlength.trans hband).trans (le_max_right _ _)

/-- **Writing an entry keeps the cache banded**, if no more proxies were alive before than the peak. -/
theorem Banded.insert (h : c.Banded peak) (hlive : (c.living live).length ≤ peak) (a : Nat)
    (u : UserdataRef) : ((c.clean live).put a u).Banded peak := by
  obtain ⟨k, hlength, hband⟩ := h
  have hclean := (c.clean_sublist live).length_le
  by_cases hroom : (c.clean live).length < band k
  · exact ⟨k, (length_put_le _ a u).trans hroom, hband⟩
  · -- There is no room: the band is full although it was cleaned, so all its proxies are alive.
    have hfull : c.length = band k := hlength.antisymm ((Nat.le_of_not_lt hroom).trans hclean)
    have hpeak : band k ≤ peak := by
      rw [clean_of_full hfull] at hroom
      exact (Nat.le_of_not_lt hroom).trans hlive
    have hpos : 1 ≤ band k := Nat.le_trans (by decide) (cleaningSize_le_band k)
    refine ⟨k + 1, ?_, .inr ?_⟩
    · calc ((c.clean live).put a u).length
        _ ≤ (c.clean live).length + 1 := length_put_le _ a u
        _ ≤ c.length + 1 := Nat.succ_le_succ (c.clean_sublist live).length_le
        _ ≤ 2 * band k := by omega
        _ = band (k + 1) := (band_succ k).symm
    · rw [band_succ]
      exact Nat.mul_le_mul_left 2 hpeak

end ProxyCache

/-! ### Runs of a cache -/

namespace World

/-- The entries of the cache of a binding. -/
def entries (w : World) (via : BindingRef) : ProxyCache :=
  ((w.bindings.get? via).map Binding.cache).getD []

/-- How many cached proxies of a binding are alive. -/
def liveEntries (w : World) (via : BindingRef) : Nat :=
  ((w.entries via).living fun u => w.alive u.handle).length

/-- The world in which the cache of a binding has an entry written. -/
def caching (w : World) (via : BindingRef) (o : ObjectRef) (u : UserdataRef) : World :=
  ((cacheProxy via o u : Act Empty Unit).outcome w).2

variable {w : World} {via : BindingRef} {o : ObjectRef} {u : UserdataRef}

/-- The entries of a binding that is there are those of its cache. -/
theorem entries_of_get? {b : Binding} (hb : w.bindings.get? via = some b) : w.entries via = b.cache := by
  rw [entries, hb, Option.map_some, Option.getD_some]

/-- Of a binding that exists the entries that are alive are counted as the binding counts them. -/
theorem liveEntries_eq {b : Binding} (hb : w.bindings.get? via = some b) :
    w.liveEntries via = w.liveCount via := by
  rw [liveEntries, entries_of_get? hb, liveCount, binding, hb, Option.getD_some]
  rfl

/-- The cache is cleaned and the entry is put into it, unless there is no such binding. -/
theorem entries_caching (w : World) (via : BindingRef) (o : ObjectRef) (u : UserdataRef) :
    (w.caching via o u).entries via = w.entries via ∨ (w.caching via o u).entries via =
      ((w.entries via).clean fun u => w.alive u.handle).put (w.layout o.ref) u := by
  have hset : (w.caching via o u).bindings.get? via = (w.bindings.get? via).map fun _ =>
      { w.binding via with
        cache := ((w.binding via).cache.clean fun u => w.alive u.handle).put (w.layout o.ref) u } := by
    show (w.bindings.set via _).get? via = _
    rw [Store.get?_set, if_pos rfl]
  -- Without the binding nothing is written.
  cases hb : w.bindings.get? via with
  | none =>
    rw [hb, Option.map_none] at hset
    exact .inl (by rw [entries, entries, hset, hb])
  | some b =>
    have hbinding : w.binding via = b := by rw [binding, hb, Option.getD_some]
    rw [hb, Option.map_some, hbinding] at hset
    exact .inr (by rw [entries_of_get? hset, entries_of_get? hb])

/-- Other bindings have other caches. -/
theorem entries_caching_of_ne {via' : BindingRef} (hne : via ≠ via') :
    (w.caching via' o u).entries via = w.entries via := by
  have hset : (w.caching via' o u).bindings.get? via = w.bindings.get? via :=
    Store.get?_set_ne _ _ hne
  rw [entries, entries, hset]

end World

/-- **What can happen to the cache of a binding**: an entry is written, or it stays as it is, whatever dies
or comes into being meanwhile. -/
inductive CacheStep (via : BindingRef) : World → World → Prop
  | insert (w : World) (o : ObjectRef) (u : UserdataRef) : CacheStep via w (w.caching via o u)
  | meanwhile {w w' : World} (h : w'.entries via = w.entries via) : CacheStep via w w'

/-- The greatest number of cached proxies that were alive at the same time so far. -/
def peakLive (via : BindingRef) (run : ℕ → World) : ℕ → ℕ
  | 0 => (run 0).liveEntries via
  | n + 1 => max (peakLive via run n) ((run (n + 1)).liveEntries via)

section

variable {w w' : World} {via : BindingRef} {n : ℕ} {run : ℕ → World}

/-- It is the greatest of the numbers so far. -/
theorem isGreatest_peakLive (via : BindingRef) (run : ℕ → World) (n : ℕ) :
    IsGreatest {m | ∃ k ≤ n, (run k).liveEntries via = m} (peakLive via run n) := by
  -- At first there is one number, and then there is one more each time.
  induction n with
  | zero =>
    refine ⟨⟨0, le_rfl, rfl⟩, ?_⟩
    rintro m ⟨k, hk, rfl⟩
    rw [Nat.le_zero.mp hk]
    exact le_rfl
  | succ n ih =>
    obtain ⟨⟨k, hk, hpeak⟩, hgreatest⟩ := ih
    constructor
    · rcases max_choice (peakLive via run n) ((run (n + 1)).liveEntries via) with hmax | hmax
      · exact ⟨k, hk.trans n.le_succ, hpeak.trans hmax.symm⟩
      · exact ⟨n + 1, le_rfl, hmax.symm⟩
    · rintro m ⟨j, hj, rfl⟩
      rcases Nat.le_or_eq_of_le_succ hj with hj | rfl
      · exact (hgreatest ⟨j, hj, rfl⟩).trans (le_max_left _ _)
      · exact le_max_right _ _

/-- **One step keeps the cache banded.** -/
theorem CacheStep.banded {peak : ℕ} (h : CacheStep via w w') (hw : (w.entries via).Banded peak)
    (hlive : w.liveEntries via ≤ peak) : (w'.entries via).Banded peak := by
  cases h with
  | meanwhile h => rwa [h]
  | insert o u =>
    rcases w.entries_caching via o u with hcache | hcache <;> rw [hcache]
    · exact hw
    · exact hw.insert hlive _ u

/-- **So does a run**, by the peak so far. -/
theorem banded_run (hstart : (run 0).entries via = [])
    (hstep : ∀ n, CacheStep via (run n) (run (n + 1))) (n : ℕ) :
    ((run n).entries via).Banded (peakLive via run n) := by
  induction n with
  | zero =>
    rw [hstart]
    exact ProxyCache.banded_nil _
  | succ n ih =>
    have hlive : (run n).liveEntries via ≤ peakLive via run n :=
      (isGreatest_peakLive via run n).2 ⟨n, le_rfl, rfl⟩
    exact ((hstep n).banded ih hlive).mono (le_max_left _ _)

end

/-! ### Conversions

A conversion of an object writes no entry if the cache has a proxy for it, and otherwise one. -/

namespace World

/-- The world in which a proxy of an object was made. -/
def withNew (w : World) (via : BindingRef) (o : ObjectRef) : World :=
  ((newProxy via (.object o) : Act Empty UserdataRef).outcome w).2

/-- How the conversion of an object leaves the caches: as they were, or with an entry for the proxy that it
made. -/
inductive Wraps (w : World) (via : BindingRef) (o : ObjectRef) : UserdataRef → World → Prop
  | cached {u : UserdataRef} {w' : World} (h : w.cachedProxy? via o = some u)
    (hw' : ∀ via', w'.entries via' = w.entries via') : Wraps w via o u w'
  | fresh {w' : World} (h : w.cachedProxy? via o = none) (hw' : ∀ via', w'.entries via' =
      ((w.withNew via o).caching via o w.userdata.next).entries via') :
    Wraps w via o w.userdata.next w'

end World

/-- A conversion of an object gives a proxy of it, and leaves the caches as it says. -/
theorem toScript_wraps {ε : Type} {w w' : World} {via : BindingRef} {o : ObjectRef} {s : ScriptValue}
    (h : (toScript via (.object o) : Act ε ScriptValue).outcome w = (.ok s, w')) :
    ∃ u, s = .userdata u ∧ w.Wraps via o u w' := by
  obtain ⟨u, hu, rfl⟩ := toScript_object h
  refine ⟨u, rfl, ?_⟩
  rw [outcome_proxyFor] at hu
  cases hcached : w.cachedProxy? via o with
  | some v =>
    rw [hcached] at hu
    cases hu
    exact .cached hcached fun _ => rfl
  | none =>
    rw [hcached] at hu
    cases hu
    exact .fresh hcached fun _ => rfl

/-! ### Sessions -/

/-- The proxies that are cached were made, and are cached once. -/
structure World.CachesOnce (w : World) : Prop where
  made : ∀ via, ∀ e ∈ w.entries via, e.2.index < w.userdata.size
  distinct : ∀ via, (w.entries via).Distinct

namespace World

variable {w : World} {via via' : BindingRef} {o : ObjectRef} {u : UserdataRef}

/-- An entry that is there was there before, or is the one that was written. -/
theorem mem_entries_caching {e : Nat × UserdataRef} (he : e ∈ (w.caching via o u).entries via') :
    e ∈ w.entries via' ∨ e.2 = u := by
  by_cases hvia : via' = via
  · subst hvia
    rcases w.entries_caching via' o u with hcache | hcache <;> rw [hcache] at he
    · exact .inl he
    · rcases List.mem_cons.mp he with rfl | he
      · exact .inr rfl
      · exact .inl ((ProxyCache.clean_sublist _ _).subset (List.mem_filter.mp he).1)
  · rw [entries_caching_of_ne hvia] at he
    exact .inl he

/-- A proxy is cached that was just made. -/
theorem CachesOnce.caching (h : w.CachesOnce) (hu : u.index < w.userdata.size)
    (hfresh : ∀ e ∈ w.entries via, e.2 ≠ u) : (w.caching via o u).CachesOnce where
  made via' e he := by
    rcases mem_entries_caching he with he | rfl
    · exact h.made via' e he
    · exact hu
  distinct via' := by
    by_cases hvia : via' = via
    · subst hvia
      rcases w.entries_caching via' o u with hcache | hcache <;> rw [hcache]
      · exact h.distinct via'
      · exact (h.distinct via').insert _ hfresh
    · rw [entries_caching_of_ne hvia]
      exact h.distinct via'

end World

/-- **What happens to the caches between two worlds**: steps, which cache no proxy twice. -/
structure CachePath (w w' : World) : Prop where
  steps : ∀ via, Relation.ReflTransGen (CacheStep via) w w'
  once : w.CachesOnce → w'.CachesOnce

namespace CachePath

variable {w v w' : World}

/-- What happens one after another happens. -/
theorem trans (h : CachePath w v) (h' : CachePath v w') : CachePath w w' where
  steps via := (h.steps via).trans (h'.steps via)
  once hw := h'.once (h.once hw)

/-- The caches stay as they are. -/
theorem of_entries (h : ∀ via, w'.entries via = w.entries via)
    (hsize : w.userdata.size ≤ w'.userdata.size) : CachePath w w' where
  steps via := .single (.meanwhile (h via))
  once hw :=
    { made := fun via e he => (hw.made via e (h via ▸ he)).trans_le hsize
      distinct := fun via => h via ▸ hw.distinct via }

/-- Where bindings are untouched the caches are. -/
theorem of_bindings (h : w'.bindings = w.bindings) (hsize : w.userdata.size ≤ w'.userdata.size) :
    CachePath w w' :=
  of_entries (fun via => by rw [World.entries, World.entries, h]) hsize

/-- New userdata is in no cache. -/
theorem newUserdata (w : World) (d : Userdata) :
    CachePath w { w with userdata := w.userdata.push d } := by
  refine of_bindings rfl ?_
  show w.userdata.size ≤ (w.userdata.push d).size
  rw [Store.size_push]
  exact Nat.le_succ _

/-- A new binding begins with an empty cache. -/
theorem newBinding (w : World) (c : Config) :
    CachePath w { w with bindings := w.bindings.push (.ofConfig c) } := by
  refine of_entries (fun via => ?_) le_rfl
  -- A binding that was there keeps its cache, and a new one has an empty cache.
  cases hb : w.bindings.get? via with
  | some b =>
    have hpushed := Store.get?_push_of_some (.ofConfig c) hb
    rw [World.entries_of_get? hpushed, World.entries_of_get? hb]
  | none =>
    rw [World.entries, World.entries, hb]
    cases hpushed : (w.bindings.push (.ofConfig c)).get? via with
    | none => rfl
    | some b =>
      rcases Store.get?_push_cases hpushed with ⟨-, rfl⟩ | hold
      · rfl
      · cases hb.symm.trans hold

/-- **A new proxy is made and cached.** -/
theorem withProxy (w : World) (via : BindingRef) (o : ObjectRef) : CachePath w (w.withProxy via o) := by
  -- The proxy is there before it is cached, and the journal is written after that.
  have hsize : (w.withNew via o).userdata.size = w.userdata.size + 1 := Store.size_push _ _
  have hmade : CachePath w (w.withNew via o) := newUserdata w _
  have hjournal : CachePath ((w.withNew via o).caching via o w.userdata.next) (w.withProxy via o) :=
    of_bindings rfl le_rfl
  refine ⟨fun via' => ?_, fun hw => ?_⟩
  · have hcached : CacheStep via' (w.withNew via o) ((w.withNew via o).caching via o w.userdata.next) := by
      by_cases hvia : via' = via
      · exact hvia ▸ .insert _ o w.userdata.next
      · exact .meanwhile (World.entries_caching_of_ne hvia)
    exact ((hmade.steps via').tail hcached).trans (hjournal.steps via')
  · refine hjournal.once ((hmade.once hw).caching ?_ fun e he heq => ?_)
    · rw [hsize]
      exact Nat.lt_succ_self _
    · exact Nat.lt_irrefl _ (heq ▸ hw.made via e he)

/-- **The changes that acts make**, in the order of `Effects`. -/
theorem effects {b : Bool} (h : Effects .all b w w') : CachePath w w' := by
  induction h with
  | trans _ _ ih ih' => exact ih.trans ih'
  | binding w c => exact newBinding w c
  | wrapped w via o => exact withProxy w via o
  -- What a bracket changes at its ends is no cache.
  | hold _ _ ih | lent _ _ _ _ ih | called _ _ _ ih | resumed _ _ _ ih =>
    refine trans (trans ?_ ih) ?_
    · exact of_bindings rfl le_rfl
    · exact of_bindings rfl le_rfl
  | carrier w e => exact newUserdata w _
  | foreign w n t => exact newUserdata w _
  | proxy w via t => exact newUserdata w _
  | disposed w u p _ => exact of_bindings rfl (Store.size_set _ _ _).ge
  | _ => exact of_bindings rfl le_rfl

/-- All that happens between the instants of a session is of this kind. -/
theorem passing : Passing CachePath where
  refl _ := of_bindings rfl le_rfl
  trans := trans
  effects := effects
  held _ _ := of_bindings rfl le_rfl
  cleared _ := of_bindings rfl le_rfl
  entered _ _ _ := of_bindings rfl le_rfl
  left _ _ := of_bindings rfl le_rfl
  resuming _ _ _ := of_bindings rfl le_rfl
  finishing _ _ := of_bindings rfl le_rfl
  borrowed _ _ _ := of_bindings rfl le_rfl

end CachePath

namespace World

/-- A session begins with an empty cache. -/
theorem entries_start (c : Config) (layout : Ref .object → Nat) (via : BindingRef) :
    (start c layout).entries via = [] := by
  -- There is one binding, the own one of the bridge.
  cases hb : (start c layout).bindings.get? via with
  | none => rw [entries, hb]; rfl
  | some b =>
    rcases Store.get?_push_cases hb with ⟨-, rfl⟩ | hempty
    · exact entries_of_get? hb
    · cases hempty

/-- Nothing is cached at first. -/
theorem cachesOnce_start (c : Config) (layout : Ref .object → Nat) : (start c layout).CachesOnce where
  made via e he := by
    rw [entries_start] at he
    cases he
  distinct via := by
    rw [entries_start]
    exact ProxyCache.distinct_nil

end World

/-- **The cache of proxies does not leak.** Let entries be written into the cache of a binding, which is empty
at first, while proxies die in whatever order. Then at every point it has at most sixty-four entries, or at
most twice as many as the greatest number of cached proxies that were alive at the same time so far. Cleaning
never removes an entry whose proxy is alive, and neither does writing an entry, unless it is for the same
address.

The conversion of an object writes an entry only if the cache gives no proxy for it, and then one. The caches
of a session come about by such steps. No address and no proxy has two entries in one of them, so the entries
that are alive are as many proxies, and they are those that the binding counts. -/
theorem proxy_cache_bounded :
    (∀ via (run : ℕ → World), (run 0).entries via = [] →
      (∀ n, CacheStep via (run n) (run (n + 1))) →
      ∀ n, IsGreatest {m | ∃ k ≤ n, (run k).liveEntries via = m} (peakLive via run n) ∧
        ((run n).entries via).length ≤ max 64 (2 * peakLive via run n)) ∧
    (∀ (w : World) via o u, ∀ e ∈ w.entries via, w.alive e.2.handle = true →
      e ∈ (w.entries via).clean (fun u => w.alive u.handle) ∧
        (e.1 ≠ w.layout o.ref → e ∈ (w.caching via o u).entries via)) ∧
    (∀ (w w' : World) via o s,
      (toScript via (.object o) : Act HostFailure ScriptValue).outcome w = (.ok s, w') →
        ∃ u, s = .userdata u ∧ w.Wraps via o u w') ∧
    ∀ (c : Config) layout (ops : Program), ∀ i ∈ (World.start c layout).instants ops, ∀ via,
      (World.start c layout).entries via = [] ∧
      Relation.ReflTransGen (CacheStep via) (.start c layout) i.world ∧
      (i.world.entries via).Distinct ∧
      ∀ b, i.world.bindings.get? via = some b →
        i.world.entries via = b.cache ∧ i.world.liveEntries via = i.world.liveCount via := by
  refine ⟨fun via run hstart hstep n => ⟨isGreatest_peakLive via run n,
    -- The bound is that of the band, and holds of every run.
    (banded_run hstart hstep n).length_le⟩, ?_, fun w w' via o s => toScript_wraps, ?_⟩
  · intro w via o u e he halive
    refine ⟨ProxyCache.mem_clean he halive, fun hne => ?_⟩
    rcases w.entries_caching via o u with hcache | hcache <;> rw [hcache]
    · exact he
    · exact ProxyCache.mem_put_of_ne (ProxyCache.mem_clean he halive) hne
  -- A session is a path of such steps from an empty cache.
  · intro c layout ops i hi via
    have hpath := (CachePath.passing.instants c layout ops).starts i hi
    exact ⟨World.entries_start c layout via, hpath.steps via,
      (hpath.once (World.cachesOnce_start c layout)).distinct via,
      fun b hb => ⟨World.entries_of_get? hb, World.liveEntries_eq hb⟩⟩

namespace ProxyCacheBounded

/-- One of many lamps, by its number. -/
def lamp (n : ℕ) : ObjectRef := ⟨⟨n⟩, ⟨⟨0⟩, "Lamp"⟩⟩

/-- Proxies that are cached one after another, and none of which is alive. -/
def crowd : ℕ → World
  | 0 => .start .default fun r => r.index
  | n + 1 => (crowd n).caching ⟨0⟩ (lamp n) ⟨n⟩

/-- The result is stored under a name. -/
def into (name : String) : Disposition := ⟨some name, none, false, true⟩

/-- A lamp whose proxy stays alive. -/
def wrappedLamp : Program :=
  [.cls (into "Lamp") ⟨"Lamp", [], none, none⟩,
    .act (into "lamp") (.cls (.instantiate "Lamp" [])),
    .act (into "proxy") (.proxy (.wrap (some "lamp")))]

end ProxyCacheBounded

open ProxyCacheBounded in
/-- The sixty-fifth proxy finds a full cache without anything alive in it, which is cleaned. The proxy that is
alive stays when another one is cached. -/
theorem proxy_cache_bounded_crowd :
    let w := (World.start .default fun r => r.index).after wrappedLamp
    let entry : ℕ × UserdataRef := (0, ⟨0⟩)
    ((crowd 0).entries ⟨0⟩ = [] ∧ ∀ n, CacheStep ⟨0⟩ (crowd n) (crowd (n + 1))) ∧
      ((crowd 64).entries ⟨0⟩).length = 64 ∧ ((crowd 65).entries ⟨0⟩).length = 1 ∧
      (∀ n, ((crowd n).entries ⟨0⟩).length ≤ max 64 (2 * peakLive ⟨0⟩ crowd n)) ∧
      (entry ∈ w.entries ⟨0⟩ ∧ w.alive entry.2.handle = true ∧ entry.1 ≠ w.layout (lamp 1).ref) ∧
      entry ∈ (w.caching ⟨0⟩ (lamp 1) ⟨1⟩).entries ⟨0⟩ ∧
      (∃ w', w.Wraps ⟨0⟩ (lamp 0) ⟨0⟩ w') ∧
      Relation.ReflTransGen (CacheStep ⟨0⟩) (.start .default fun r => r.index) w ∧
      (w.entries ⟨0⟩).Distinct ∧ w.liveEntries ⟨0⟩ = w.liveCount ⟨0⟩ := by
  intro w entry
  obtain ⟨hbounded, hkept, hconverted, hsession⟩ := proxy_cache_bounded
  have hempty : (crowd 0).entries ⟨0⟩ = [] := World.entries_start _ _ _
  have hstep : ∀ n, CacheStep ⟨0⟩ (crowd n) (crowd (n + 1)) := fun n => .insert _ _ _
  have hentry : entry ∈ w.entries ⟨0⟩ := by decide +kernel
  have halive : w.alive entry.2.handle = true := by decide +kernel
  have hother : entry.1 ≠ w.layout (lamp 1).ref := by decide +kernel
  -- The lamp has its proxy in the cache, so its conversion gives that one.
  have hproxy : (toScript ⟨0⟩ (.object (lamp 0)) : Act HostFailure ScriptValue).outcome w =
      (.ok (.userdata ⟨0⟩), { w with journal := .wrapped ⟨0⟩ (lamp 0) ⟨0⟩ :: w.journal }) := by
    have hcached : w.cachedProxy? ⟨0⟩ (lamp 0) = some ⟨0⟩ := by decide +kernel
    unfold toScript
    rw [outcome_bind, outcome_proxyFor, hcached]
    rfl
  obtain ⟨u, hu, hwraps⟩ := hconverted w _ ⟨0⟩ (lamp 0) _ hproxy
  obtain rfl : ⟨0⟩ = u := ScriptValue.userdata.inj hu
  -- The last instant is the end of the session.
  have hlast := List.mem_of_getLast? (World.getLast?_instants wrappedLamp (.start .default fun r => r.index))
  obtain ⟨-, hsteps, hdistinct, hcounted⟩ := hsession .default _ wrappedLamp _ hlast ⟨0⟩
  obtain ⟨b, hb⟩ : ∃ b, w.bindings.get? ⟨0⟩ = some b :=
    Option.isSome_iff_exists.mp (by decide +kernel)
  exact ⟨⟨hempty, hstep⟩, by decide +kernel, by decide +kernel,
    fun n => (hbounded ⟨0⟩ crowd hempty hstep n).2, ⟨hentry, halive, hother⟩,
    (hkept w ⟨0⟩ (lamp 1) ⟨1⟩ entry hentry halive).2 hother, ⟨_, hwraps⟩, hsteps, hdistinct,
    (hcounted b hb).2⟩

end ScriptHost
