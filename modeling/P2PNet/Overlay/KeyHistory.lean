import P2PNet.Overlay.Message
import P2PNet.Lib.Lists
import Mathlib.Tactic.Linarith

/-! The renewal of keys in `overlay::KeyProvider`. The two intervals are computed
apart from the size of the history; together they keep a key in the history for
as long as it is not lost. -/

namespace P2PNet.Overlay

open Lib.Runs Lib.Lists

structure KeySettings where
  maxHistorySize : UInt32
  expirationInterval : ℤ
  loseInterval : ℤ
  deriving DecidableEq, Repr

def seconds (n : UInt32) : ℤ := n.toNat * ticksPerSecond

def KeySettings.ofConfig (historySize renewInterval : UInt32) : KeySettings where
  maxHistorySize := historySize + 1
  expirationInterval := seconds renewInterval
  loseInterval := seconds (renewInterval * (historySize + 1))

namespace KeyProvider

variable {C : Crypto}

def newInfo (settings : KeySettings) (now : ℤ) (key : C.PrivateKey) : KeyInfo C where
  privateKey := some key
  publicKey := some (C.publicKey key)
  th := C.serviceHash key
  expirationTime := now + settings.expirationInterval
  loseTime := now + settings.loseInterval

def empty : KeyProvider C := ⟨[], by simp⟩

def renewKeys (settings : KeySettings) (now : ℤ) (key : C.PrivateKey) (p : KeyProvider C) :
    KeyProvider C where
  history :=
    let history := newInfo settings now key :: p.history
    if history.length > settings.maxHistorySize.toNat then history.dropLast else history
  derived := by
    intro info hinfo
    have hmem : info ∈ newInfo settings now key :: p.history := by
      dsimp only at hinfo
      split at hinfo
      · exact List.mem_of_mem_dropLast hinfo
      · exact hinfo
    rcases List.mem_cons.mp hmem with rfl | hold
    · exact ⟨key, rfl, rfl, rfl⟩
    · exact p.derived info hold

def getKeyInfoOf (p : KeyProvider C) (recentTh : TH) : Except Escape (Option (KeyInfo C)) :=
  match p.history.find? (fun info => info.th = recentTh) with
  | some info => info.copy >>= fun info => .ok (some info)
  | none => .ok none

lemma copy_of_mem {p : KeyProvider C} {info : KeyInfo C} (h : info ∈ p.history) :
    info.copy = .ok info := by
  obtain ⟨key, hprivate, hpublic, _⟩ := p.derived info h
  simp [KeyInfo.copy, hprivate, hpublic]

lemma getKeyInfo_eq (p : KeyProvider C) (offset : ℕ) :
    p.getKeyInfo offset = .ok p.history[offset]? := by
  rw [getKeyInfo]
  cases h : p.history[offset]? with
  | none => rfl
  | some info =>
    simp only [copy_of_mem (List.mem_of_getElem? h)]
    rfl

lemma getKeyInfoOf_of_mem {p : KeyProvider C} {info : KeyInfo C} (h : info ∈ p.history) :
    ∃ entry, p.getKeyInfoOf info.th = .ok (some entry) ∧ entry.th = info.th := by
  cases hf : p.history.find? (fun other => other.th = info.th) with
  | none => simpa using List.find?_eq_none.mp hf info h
  | some entry =>
    refine ⟨entry, ?_, by simpa using List.find?_some hf⟩
    simp only [getKeyInfoOf, hf, copy_of_mem (List.mem_of_find?_eq_some hf)]
    rfl

end KeyProvider

/-- The provider with the expiry of its timer, which is armed by the first renewal on. -/
structure KeyGenerator (C : Crypto) where
  keys : KeyProvider C
  timer : Option ℤ

structure Renewal (C : Crypto) where
  now : ℤ
  key : C.PrivateKey

namespace KeyGenerator

variable {C : Crypto}

def new : KeyGenerator C := ⟨.empty, none⟩

def step (settings : KeySettings) (g : KeyGenerator C) (r : Renewal C) :
    Except Escape (KeyGenerator C) :=
  if g.timer.all (· ≤ r.now) then
    .ok ⟨g.keys.renewKeys settings r.now r.key, some (r.now + settings.expirationInterval)⟩
  else .error .disabled

def info (settings : KeySettings) (r : Renewal C) : KeyInfo C :=
  KeyProvider.newInfo settings r.now r.key

structure Inv (settings : KeySettings) (past : List (Renewal C)) (g : KeyGenerator C) : Prop where
  history : g.keys.history = (past.map (info settings)).take settings.maxHistorySize.toNat
  timer : g.timer = past.head?.map (fun r => r.now + settings.expirationInterval)
  spaced : past.IsChain (fun newer older => older.now + settings.expirationInterval ≤ newer.now)

lemma step_inv (settings : KeySettings) (past : List (Renewal C)) (g : KeyGenerator C)
    (r : Renewal C) (g' : KeyGenerator C) (h : Inv settings past g)
    (hs : step settings g r = .ok g') : Inv settings (r :: past) g' := by
  rw [step] at hs
  split at hs
  · next hdue =>
    obtain rfl := Except.ok.inj hs
    refine ⟨?_, rfl, ?_⟩
    · simp only [KeyProvider.renewKeys, h.history]
      exact dropLast_cons_take _ _ _
    · refine List.isChain_cons.mpr ⟨?_, h.spaced⟩
      intro older holder
      rw [h.timer, Option.mem_def.mp holder] at hdue
      simpa using hdue
  · cases hs

lemma inv_new (settings : KeySettings) : Inv settings [] (new : KeyGenerator C) :=
  ⟨by simp [new, KeyProvider.empty], rfl, List.isChain_nil⟩

lemma inv_run {settings : KeySettings} {renewals : List (Renewal C)} {g : KeyGenerator C}
    (h : run (step settings) new renewals = .ok g) : Inv settings renewals.reverse g := by
  simpa using history_invariant (step_inv _) (inv_new _) h

lemma spaced_le {settings : KeySettings} {past : List (Renewal C)} {newest r : Renewal C} {j : ℕ}
    (h : (newest :: past).IsChain
      (fun newer older => older.now + settings.expirationInterval ≤ newer.now))
    (hr : (newest :: past)[j]? = some r) :
    r.now + j * settings.expirationInterval ≤ newest.now := by
  induction past generalizing newest j with
  | nil =>
    cases j with
    | zero => simp_all
    | succ j => simp at hr
  | cons older past ih =>
    cases j with
    | zero => simp_all
    | succ j =>
      obtain ⟨hfirst, hrest⟩ := List.isChain_cons_cons.mp h
      have hle := ih hrest (by simpa using hr)
      push_cast
      linarith

lemma lt_size_of_lt_loseTime {settings : KeySettings} {past : List (Renewal C)} {r : Renewal C}
    {j : ℕ} {time : ℤ}
    (hlose : settings.loseInterval = settings.maxHistorySize.toNat * settings.expirationInterval)
    (hpos : 0 ≤ settings.expirationInterval)
    (h : past.IsChain (fun newer older => older.now + settings.expirationInterval ≤ newer.now))
    (hr : past[j]? = some r) (hnow : ∀ r ∈ past, r.now ≤ time)
    (ht : time < (info settings r).loseTime) : j < settings.maxHistorySize.toNat := by
  by_contra hj
  cases past with
  | nil => simp at hr
  | cons newest past =>
    have hle := spaced_le h hr
    have hnewest := hnow newest (by simp)
    have hmul : (settings.maxHistorySize.toNat : ℤ) * settings.expirationInterval ≤
        j * settings.expirationInterval :=
      mul_le_mul_of_nonneg_right (by exact_mod_cast not_lt.mp hj) hpos
    simp only [info, KeyProvider.newInfo, hlose] at ht
    linarith

end KeyGenerator

lemma KeySettings.toNat_maxHistorySize {historySize : UInt32} (renewInterval : UInt32)
    (hM : historySize.toNat + 1 < 2 ^ 32) :
    (KeySettings.ofConfig historySize renewInterval).maxHistorySize.toNat =
      historySize.toNat + 1 := by
  simp only [ofConfig, UInt32.toNat_add, UInt32.toNat_one]
  omega

lemma KeySettings.loseInterval_eq {historySize renewInterval : UInt32}
    (hM : historySize.toNat + 1 < 2 ^ 32)
    (hR : renewInterval.toNat * (historySize.toNat + 1) < 2 ^ 32) :
    (KeySettings.ofConfig historySize renewInterval).loseInterval =
      (KeySettings.ofConfig historySize renewInterval).maxHistorySize.toNat *
        (KeySettings.ofConfig historySize renewInterval).expirationInterval := by
  have hsize := toNat_maxHistorySize renewInterval hM
  simp only [ofConfig] at hsize ⊢
  rw [hsize, seconds, seconds, UInt32.toNat_mul, hsize, Nat.mod_eq_of_lt hR]
  push_cast
  ring

theorem KeyGenerator.keys_kept_until_lost {C : Crypto} {historySize renewInterval : UInt32}
    (hM : historySize.toNat + 1 < 2 ^ 32)
    (hR : renewInterval.toNat * (historySize.toNat + 1) < 2 ^ 32) (renewals : List (Renewal C))
    {g : KeyGenerator C}
    (h : run (step (.ofConfig historySize renewInterval)) new renewals = .ok g) :
    let generated := (renewals.map (info (.ofConfig historySize renewInterval))).reverse
    let kept := min renewals.length (historySize.toNat + 1)
    g.keys.history = generated.take kept ∧
      (∀ o < kept, ∃ key, generated[o]? = some key ∧ g.keys.getKeyInfo o = .ok (some key)) ∧
      (∀ o, kept ≤ o → g.keys.getKeyInfo o = .ok none) ∧
      ∀ key ∈ generated, ∀ time, (∀ r ∈ renewals, r.now ≤ time) → time < key.loseTime →
        ∃ entry, g.keys.getKeyInfoOf key.th = .ok (some entry) ∧ entry.th = key.th := by
  intro generated kept
  have hi := inv_run h
  have hsize := KeySettings.toNat_maxHistorySize renewInterval hM
  have hlen : generated.length = renewals.length := by simp [generated]
  have hhistory : g.keys.history = generated.take kept := by
    rw [hi.history, List.map_reverse, hsize, List.take_eq_take_iff, hlen]
    omega
  refine ⟨hhistory, ?_, ?_, ?_⟩
  · intro o ho
    have hlt : o < generated.length := by omega
    refine ⟨generated[o], List.getElem?_eq_getElem hlt, ?_⟩
    rw [KeyProvider.getKeyInfo_eq, hhistory, List.getElem?_take_of_lt ho,
      List.getElem?_eq_getElem hlt]
  · intro o ho
    rw [KeyProvider.getKeyInfo_eq, hhistory, List.getElem?_take_eq_none ho]
  · intro key hkey time hnow ht
    apply KeyProvider.getKeyInfoOf_of_mem
    -- an evicted key was followed by as many renewals as the history holds
    obtain ⟨j, hj⟩ := List.mem_iff_getElem?.mp hkey
    have hj' : (renewals.reverse.map (info (.ofConfig historySize renewInterval)))[j]? =
        some key := by
      rw [List.map_reverse]
      exact hj
    obtain ⟨r, hr, rfl⟩ := Option.map_eq_some_iff.mp (List.getElem?_map ▸ hj')
    have hpos : 0 ≤ (KeySettings.ofConfig historySize renewInterval).expirationInterval := by
      simp [KeySettings.ofConfig, seconds, ticksPerSecond]
    have hlt := lt_size_of_lt_loseTime (KeySettings.loseInterval_eq hM hR) hpos hi.spaced hr
      (by simpa using hnow) ht
    rw [hi.history]
    exact List.mem_of_getElem? ((List.getElem?_take_of_lt hlt).trans hj')

theorem KeyGenerator.keys_kept_until_lost_three :
    ∃ g : KeyGenerator sampleCrypto,
      run (step (.ofConfig 1 10)) new [⟨0, (1 : ℕ)⟩, ⟨10 * ticksPerSecond, (2 : ℕ)⟩,
        ⟨25 * ticksPerSecond, (1 : ℕ)⟩] = .ok g ∧
      g.keys.history.length = 2 ∧
      ∃ entry, g.keys.getKeyInfoOf (sampleCrypto.serviceHash (2 : ℕ)) = .ok (some entry) ∧
        entry.th = sampleCrypto.serviceHash (2 : ℕ) := by
  have h : run (step (.ofConfig 1 10)) (new : KeyGenerator sampleCrypto) [⟨0, (1 : ℕ)⟩,
      ⟨10 * ticksPerSecond, (2 : ℕ)⟩, ⟨25 * ticksPerSecond, (1 : ℕ)⟩] = .ok _ := rfl
  obtain ⟨hhistory, _, _, hkept⟩ := keys_kept_until_lost (by decide) (by decide) _ h
  refine ⟨_, h, by rw [hhistory]; rfl, ?_⟩
  exact hkept (info (.ofConfig 1 10) ⟨10 * ticksPerSecond, (2 : ℕ)⟩) (by simp)
    (29 * ticksPerSecond) (by decide) (by decide)

/-! The size of the history and the lose interval are 32-bit results. Where they wrap, the
history holds no key at all, or a key is lost before it expires. -/

lemma KeySettings.one_le_maxHistorySize_iff (historySize renewInterval : UInt32) :
    1 ≤ (ofConfig historySize renewInterval).maxHistorySize.toNat ↔ historySize ≠ 0xFFFFFFFF := by
  have hmax : historySize = 0xFFFFFFFF ↔ historySize.toNat = 4294967295 := by
    rw [← UInt32.toNat_inj]
    rfl
  have hlt := historySize.toNat_lt
  rw [ne_eq, hmax]
  simp only [ofConfig, UInt32.toNat_add, UInt32.toNat_one]
  omega

lemma KeySettings.toNat_product (historySize renewInterval : UInt32) :
    (renewInterval * (historySize + 1)).toNat =
      renewInterval.toNat * (historySize.toNat + 1) % 2 ^ 32 := by
  rw [UInt32.toNat_mul, UInt32.toNat_add, UInt32.toNat_one, Nat.mul_mod_mod]

lemma KeyGenerator.history_ne_nil_iff {C : Crypto} {settings : KeySettings}
    {renewals : List (Renewal C)} {g : KeyGenerator C} (hne : renewals ≠ [])
    (h : run (step settings) new renewals = .ok g) :
    g.keys.history ≠ [] ↔ 1 ≤ settings.maxHistorySize.toNat := by
  rw [(inv_run h).history, ne_eq, List.take_eq_nil_iff, List.map_eq_nil_iff,
    List.reverse_eq_nil_iff]
  simp only [hne, or_false]
  omega

lemma KeyGenerator.expirationTime_le_loseTime_iff {C : Crypto} (historySize renewInterval : UInt32)
    (r : Renewal C) :
    (info (.ofConfig historySize renewInterval) r).expirationTime ≤
        (info (.ofConfig historySize renewInterval) r).loseTime ↔
      renewInterval.toNat ≤ renewInterval.toNat * (historySize.toNat + 1) % 2 ^ 32 := by
  rw [← KeySettings.toNat_product]
  simp only [info, KeyProvider.newInfo, KeySettings.ofConfig, seconds, ticksPerSecond]
  omega

theorem KeyGenerator.lifetimes_iff {C : Crypto} (historySize renewInterval : UInt32) :
    (1 ≤ (KeySettings.ofConfig historySize renewInterval).maxHistorySize.toNat ↔
      historySize ≠ 0xFFFFFFFF) ∧
    (∀ (renewals : List (Renewal C)) (g : KeyGenerator C), renewals ≠ [] →
      run (step (.ofConfig historySize renewInterval)) new renewals = .ok g →
      (g.keys.history ≠ [] ↔ historySize ≠ 0xFFFFFFFF) ∧
        ((∃ key, g.keys.getKeyInfo 0 = .ok (some key)) ↔ historySize ≠ 0xFFFFFFFF)) ∧
    ∀ r : Renewal C,
      (info (.ofConfig historySize renewInterval) r).expirationTime ≤
          (info (.ofConfig historySize renewInterval) r).loseTime ↔
        renewInterval.toNat ≤ renewInterval.toNat * (historySize.toNat + 1) % 2 ^ 32 := by
  refine ⟨KeySettings.one_le_maxHistorySize_iff _ _, ?_, expirationTime_le_loseTime_iff _ _⟩
  intro renewals g hne h
  have hhistory : g.keys.history ≠ [] ↔ historySize ≠ 0xFFFFFFFF :=
    (history_ne_nil_iff hne h).trans (KeySettings.one_le_maxHistorySize_iff _ _)
  refine ⟨hhistory, ?_⟩
  rw [← hhistory, KeyProvider.getKeyInfo_eq]
  cases g.keys.history <;> simp

theorem KeyGenerator.lifetimes_wrap :
    (KeySettings.ofConfig 0xFFFFFFFF 10).maxHistorySize = 0 ∧
      (∃ g : KeyGenerator sampleCrypto,
        run (step (.ofConfig 0xFFFFFFFF 10)) new [⟨0, (1 : ℕ)⟩] = .ok g ∧ g.keys.history = []) ∧
      (info (C := sampleCrypto) (.ofConfig 1 0x80000000) ⟨0, (1 : ℕ)⟩).loseTime <
        (info (C := sampleCrypto) (.ofConfig 1 0x80000000) ⟨0, (1 : ℕ)⟩).expirationTime :=
  ⟨by decide, ⟨_, rfl, rfl⟩, by decide⟩

end P2PNet.Overlay
