import RCarM3N.Proofs.EmmcSector

/-! The selection of a partition, over sequences of calls whose commands succeed or fail in any
pattern. The decision to switch rests on the copy of EXT_CSD that the driver keeps. -/

namespace RCar.EmmcSector

open Prog RCar.Emmc

variable {s t u : Drv} {id : UInt32}

/-- A call that succeeds leaves the partition selected. -/
def Truthful (id : UInt32) (s : Drv) : Prop :=
  ∀ t, (emmcSelectPartition id).run s = (some .EMMC_SUCCESS, t) → t.card.access = id.toNat

/-- The copy does not name the partition while the card has another one selected. -/
def FreshHit (id : UInt32) (s : Drv) : Prop :=
  s.mount = true → s.partitionConfig &&& PARTITION_ID_MASK = id → s.card.access = id.toNat

/-- What holds before every call of a sequence that is reached. -/
def EveryCall (P : UInt32 → Drv → Prop) : List UInt32 → Drv → Prop
  | [], _ => True
  | id :: ids, s => P id s ∧
    ∀ code t, (emmcSelectPartition id).run s = (some code, t) → EveryCall P ids t

theorem EveryCall.congr {P Q : UInt32 → Drv → Prop} (h : ∀ id s, P id s ↔ Q id s)
    (ids : List UInt32) (s : Drv) : EveryCall P ids s ↔ EveryCall Q ids s := by
  induction ids generalizing s with
  | nil => exact Iff.rfl
  | cons id ids ih =>
    refine and_congr (h id s) ?_
    exact forall_congr' fun code => forall_congr' fun t => imp_congr_right fun _ => ih t

/-! ## The switch -/

/-- The argument of CMD6 that `emmc_select_partition` makes. -/
def switchArg (partitionConfig id : UInt32) : UInt32 :=
  EMMC_SWITCH_PARTITION_CONFIG ||| (((partitionConfig &&& ~~~PARTITION_ID_MASK) ||| id) <<< 8)

theorem switchArg_fields : ∀ (p : Fin 256) (i : Fin 8),
    let arg := switchArg (UInt32.ofNat p) (UInt32.ofNat i)
    arg >>> 24 = 3 ∧ ((arg >>> 16) &&& 0xFF).toNat = EMMC_EXT_CSD_PARTITION_CONFIG ∧
      (((arg >>> 8) &&& 0xFF).toUInt8.toUInt32 &&& PARTITION_ID_MASK).toNat = i := by
  decide +kernel

theorem toNat_lt_of_id (hid : id &&& ~~~PARTITION_ID_MASK = 0) : id.toNat < 8 := by
  have hmask : (~~~PARTITION_ID_MASK).toNat >>> 3 = 2 ^ 29 - 1 := by decide
  have hzero : id.toNat &&& (~~~PARTITION_ID_MASK).toNat = 0 := by
    rw [← UInt32.toNat_and, hid]
    rfl
  have hshift := congrArg (· >>> 3) hzero
  rw [Nat.shiftRight_and_distrib, hmask, Nat.and_two_pow_sub_one_eq_mod, Nat.zero_shiftRight,
    Nat.shiftRight_eq_div_pow] at hshift
  have hlt := id.toNat_lt
  omega

theorem access_switch (c : Card) (p : UInt8) (hid : id &&& ~~~PARTITION_ID_MASK = 0) :
    (c.switch (switchArg p.toUInt32 id)).access = id.toNat := by
  obtain ⟨h1, h2, h3⟩ := switchArg_fields ⟨p.toNat, p.toNat_lt⟩ ⟨id.toNat, toNat_lt_of_id hid⟩
  have hp : UInt32.ofNat p.toNat = p.toUInt32 := UInt32.toNat_inj.mp (by simp)
  dsimp only at h1 h2 h3
  rw [hp, UInt32.ofNat_toNat] at h1 h2 h3
  unfold Card.access Card.switch
  rw [if_pos h1, h2]
  dsimp only
  rw [Function.update_self]
  exact h3

/-! ## The calls -/

/-- The driver's copy of EXT_CSD is that of the card. -/
structure Synced (s : Drv) : Prop where
  copy : ∀ i < 512, s.mmc.mem (s.extCsdData + i) = s.card.extCsd i

theorem perform_extCsd {status : UInt32} {info2 : List UInt32} (hcmd : s.command = .CMD8_SEND_EXT_CSD)
    (hdir : s.mmc.cmdInfo.dir = .HAL_MEMCARD_READ) (hmode : s.mmc.transferMode = .HAL_MEMCARD_NOT_DMA)
    (hbuff : s.mmc.buffAddressVirtual = s.extCsdData)
    (hsize : s.mmc.remainSize = EMMC_MAX_EXT_CSD_LENGTH)
    (h : (perform status info2).run s = (some .EMMC_SUCCESS, t)) : t.card = s.card ∧ Synced t := by
  have hwords : (s.mmc.remainSize >>> 3).toNat = EMMC_MAX_EXT_CSD_LENGTH.toNat / 8 := by
    rw [hsize]
    decide
  have htarget : target s.mmc = s.extCsdData := by
    rw [target, if_neg (by rw [hmode]; decide), hbuff]
  rw [perform_eq _ hcmd] at h
  obtain ⟨m', rfl, hmem⟩ := readPhase_success h hdir (by decide) hwords
  refine ⟨rfl, ⟨fun i hi => ?_⟩⟩
  change m'.mem (s.extCsdData + i) = s.card.extCsd i
  change m'.mem = s.mmc.mem.copy (target s.mmc) s.card.extCsd 0 512 at hmem
  rw [hmem, htarget, Mem.copy_add _ _ _ _ _ _ hi, Nat.zero_add]

/-- A switch that succeeds has changed the card and filled the copy anew. -/
theorem emmcSetExtCsd_success {arg : UInt32}
    (h : (emmcSetExtCsd arg).run s = (some .EMMC_SUCCESS, t)) :
    t.card = s.card.switch arg ∧ Synced t := by
  unfold emmcSetExtCsd emmcMakeTransCmd emmcMakeNontransCmd at h
  -- CMD6
  rw [run_bind_modify] at h
  obtain ⟨u, hu, h⟩ := run_checked h
  obtain ⟨status, info2, -, hp⟩ := execCmd_success hu
  rw [perform_eq .CMD6_SWITCH rfl] at hp
  dsimp only at hp
  rw [run_bind_modify] at hp
  obtain rfl := congrArg Prod.snd hp
  -- CMD13
  rw [run_bind_modify] at h
  obtain ⟨u, hu, h⟩ := run_checked h
  obtain ⟨status, info2, -, hp⟩ := execCmd_success hu
  rw [perform_eq .CMD13_SEND_STATUS rfl] at hp
  obtain rfl := congrArg Prod.snd hp
  -- CMD8
  rw [run_bind_get, bind_assoc, run_bind_modify, run_bind_modify] at h
  obtain ⟨status, info2, -, hp⟩ := execCmd_success h
  exact perform_extCsd rfl rfl rfl rfl rfl hp

theorem select_truthful_iff (id : UInt32) (s : Drv) : Truthful id s ↔ FreshHit id s := by
  constructor
  · intro h hmount hcopy
    have hmount' : ¬ s.mount = false := by simp [hmount]
    have hid : ¬ id &&& ~~~PARTITION_ID_MASK ≠ 0 := by
      have hmask : PARTITION_ID_MASK &&& ~~~PARTITION_ID_MASK = 0 := by decide
      rw [← hcopy, UInt32.and_assoc, hmask, UInt32.and_zero]
      exact not_not.mpr rfl
    refine h s ?_
    unfold emmcSelectPartition
    rw [run_bind_get, run_ite, if_neg hmount', run_ite, if_neg hid, run_ite, if_pos hcopy]
    rfl
  · intro h t ht
    unfold emmcSelectPartition at ht
    rw [run_bind_get, run_ite] at ht
    by_cases hmount : s.mount = false
    · rw [if_pos hmount] at ht
      cases congrArg Prod.fst ht
    rw [if_neg hmount, run_ite] at ht
    by_cases hid : id &&& ~~~PARTITION_ID_MASK ≠ 0
    · rw [if_pos hid] at ht
      cases congrArg Prod.fst ht
    rw [if_neg hid, run_ite] at ht
    by_cases hcopy : s.partitionConfig &&& PARTITION_ID_MASK = id
    · rw [if_pos hcopy] at ht
      obtain rfl := congrArg Prod.snd ht
      exact h (Bool.eq_false_iff.not_left.mp hmount) hcopy
    · rw [if_neg hcopy] at ht
      rw [(emmcSetExtCsd_success ht).1]
      exact access_switch s.card _ (not_not.mp hid)

theorem Synced.freshHit (h : Synced s) (id : UInt32) : FreshHit id s := by
  rintro - rfl
  unfold Card.access Drv.partitionConfig
  rw [← h.copy _ (by decide)]

/-- A call that succeeds keeps the copy true. -/
theorem Synced.select (hs : Synced s)
    (h : (emmcSelectPartition id).run s = (some .EMMC_SUCCESS, t)) : Synced t := by
  unfold emmcSelectPartition at h
  rw [run_bind_get, run_ite] at h
  by_cases hmount : s.mount = false
  · rw [if_pos hmount] at h
    cases congrArg Prod.fst h
  rw [if_neg hmount, run_ite] at h
  by_cases hid : id &&& ~~~PARTITION_ID_MASK ≠ 0
  · rw [if_pos hid] at h
    cases congrArg Prod.fst h
  rw [if_neg hid, run_ite] at h
  by_cases hcopy : s.partitionConfig &&& PARTITION_ID_MASK = id
  · rw [if_pos hcopy] at h
    obtain rfl := congrArg Prod.snd h
    exact hs
  · rw [if_neg hcopy] at h
    exact (emmcSetExtCsd_success h).2

/-- From a true copy, calls of which each succeeds or leaves card and copy alone are truthful. -/
theorem Synced.truthful (hs : Synced s) {ids : List UInt32}
    (h : EveryCall (fun id s => ∀ code t, (emmcSelectPartition id).run s = (some code, t) →
      code = .EMMC_SUCCESS ∨ (Synced s → Synced t)) ids s) : EveryCall Truthful ids s := by
  induction ids generalizing s with
  | nil => trivial
  | cons id ids ih =>
    refine ⟨(select_truthful_iff id s).mpr (hs.freshHit id), fun code t ht => ?_⟩
    refine ih ?_ (h.2 code t ht)
    rcases h.1 code t ht with rfl | hkeep
    · exact hs.select ht
    · exact hkeep hs

/-- Every call of a sequence that succeeds leaves the partition selected, if and only if the copy
never names the partition that is asked for while the card has another one selected. -/
theorem selects_truthful_iff (ids : List UInt32) (s : Drv) :
    EveryCall Truthful ids s ↔ EveryCall FreshHit ids s :=
  EveryCall.congr select_truthful_iff ids s

/-- The first switch is obeyed, and the CMD13 after it fails. -/
def staleCard : Drv := { onesCard with
  outcomes := fun k => if k = 0 then .done 0x900 []
    else .failed ⟨.EMMC_ERR_CMD_TIMEOUT, by decide⟩ false fun _ => 0 }

/-- The driver then takes the partition that is no longer selected for the selected one. -/
theorem stale_copy_not_truthful : Synced staleCard ∧ ¬ EveryCall Truthful [1, 0] staleCard := by
  refine ⟨⟨fun _ _ => rfl⟩, fun h => ?_⟩
  have h1 : ((emmcSelectPartition 1).run staleCard).1 = some .EMMC_ERR_CMD_TIMEOUT := by
    decide +kernel
  have h2 : ((emmcSelectPartition 0).run ((emmcSelectPartition 1).run staleCard).2).1 =
      some .EMMC_SUCCESS := by decide +kernel
  have haccess := (h.2 _ _ (Prod.ext h1 rfl)).1 _ (Prod.ext h2 rfl)
  revert haccess
  decide +kernel

end RCar.EmmcSector
