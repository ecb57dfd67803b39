import RCarM3N.Model.Cr7Loader

/-! The fill of the DRAM in `dma_driver.c` of the loader of the Cortex-R7: the length divided over
four channels of the DMA controller, the registers that start them, and the wait for their end. -/

namespace RCar.Cr7

def DMA_PARALLEL_CH : UInt32 := 4
def DMACH : UInt32 := 1

def RDMOR_INITIAL : UInt16 := 0x0301
def RDMCHCR_FILL_TRN_MODE : UInt32 := 0x00104409
def RDMCHCR_TE_BIT : UInt32 := 0x00000002
def RDMCHCR_CAE_BIT : UInt32 := 0x80000000
def RDMFIXDAR_DAR_SHIFT : UInt64 := 32
def DAR_MASK : UInt64 := 0xFF
def LOWER_32BIT_DST_ADDR : UInt64 := 0xFFFFFFFF

/-- The registers of one channel. -/
structure FillChannel where
  dar : UInt32
  fixdar : UInt32
  sar : UInt32
  tcr : UInt32
  chcr : UInt32
deriving DecidableEq

/-- The registers of the DMA controller, `rdmchclr` as it was written last. -/
structure Dmac where
  rdmor : UInt16
  rdmsec : UInt32
  rdmchclr : UInt32
  channel : Fin 4 → FillChannel

/-- What a control register reads as in a round of the wait, at the first and at the second read of
the round. -/
abbrev Status := ℕ → Fin 4 → Fin 2 → UInt32

inductive FillResult where
  | divByZero
  | panics
  | running
  | ended (d : Dmac)

/-- The mask `((1 << RDMTCR_CNT_SHIFT) - 1)`. -/
def unitMask : UInt32 := (1 <<< RDMTCR_CNT_SHIFT) - 1

/-- `start_fillDMA` for all four channels; `fillData` is the address of the eight zero words. -/
def startFillDMA (fillData : UInt32) (dst : Fin 4 → UInt64) (len : Fin 4 → UInt32) (d : Dmac) : Dmac where
  rdmor := RDMOR_INITIAL
  rdmsec := (List.finRange 4).foldl (fun reg loop => reg ||| 1 <<< (DMACH + loop.val.toUInt32)) d.rdmsec
  rdmchclr := d.rdmchclr
  channel loop :=
    { dar := (dst loop &&& LOWER_32BIT_DST_ADDR).toUInt32
      fixdar := (dst loop >>> RDMFIXDAR_DAR_SHIFT &&& DAR_MASK).toUInt32
      sar := fillData
      tcr := len loop >>> RDMTCR_CNT_SHIFT
      chcr := RDMCHCR_FILL_TRN_MODE }

/-- One round of the wait: the channels that have not ended, or none where one reports an address error. -/
def waitRound (chcr : Fin 4 → Fin 2 → UInt32) : Option UInt32 :=
  (List.finRange 4).foldlM (fun result loop =>
    let result := if chcr loop 0 &&& RDMCHCR_TE_BIT = RDMCHCR_TE_BIT
      then result &&& ~~~(1 <<< loop.val.toUInt32) else result
    if chcr loop 1 &&& RDMCHCR_CAE_BIT ≠ 0 then none else some result)
    ((1 <<< DMA_PARALLEL_CH) - 1)

/-- The end of `end_fillDMA`: the channels cleared, and their bits in the secure control register. -/
def clearChannels (d : Dmac) : Dmac :=
  (List.finRange 4).foldl (fun d loop =>
    { d with
      rdmchclr := 1 <<< (DMACH + loop.val.toUInt32)
      rdmsec := d.rdmsec &&& (~~~1 <<< (DMACH + loop.val.toUInt32)) }) d

/-- `end_fillDMA` from round `n` on, with `fuel` rounds left. -/
def endFillDMA (status : Status) (d : Dmac) : ℕ → ℕ → FillResult
  | 0, _ => .running
  | fuel + 1, n =>
    match waitRound (status n) with
    | none => .panics
    | some result => if result = 0 then .ended (clearChannels d) else endFillDMA status d fuel (n + 1)

/-- `dmalen[0]`. -/
def dmalen0 (len : UInt32) : UInt32 := (len / DMA_PARALLEL_CH) &&& ~~~unitMask

/-- `rem_len`. -/
def remLen (len : UInt32) : UInt32 := (len % dmalen0 len + unitMask) &&& ~~~unitMask

def dmalen (len : UInt32) (loop : Fin 4) : UInt32 :=
  if loop = 3 then dmalen0 len + remLen len else dmalen0 len

def dmadst (dst : UInt64) (len : UInt32) (loop : Fin 4) : UInt64 :=
  dst + (dmalen0 len).toUInt64 * loop.val.toUInt64

/-- `exec_fillDMA`. -/
def execFillDMA (fillData : UInt32) (status : Status) (fuel : ℕ) (d : Dmac) (dst : UInt64) (len : UInt32) :
    FillResult :=
  if dmalen0 len = 0 then .divByZero
  else endFillDMA status (startFillDMA fillData (dmadst dst len) (dmalen len) d) fuel 0

/-! ## What is filled -/

/-- The bytes that a channel writes: its counter holds `bits` bits and counts units of 64 bytes, and
the upper part of its address is fixed. -/
def FillChannel.written (bits : ℕ) (c : FillChannel) : Set ℕ :=
  {a | ∃ i < 64 * (c.tcr.toNat % 2 ^ bits), a = c.fixdar.toNat * 2 ^ 32 + (c.dar.toNat + i) % 2 ^ 32}

/-- The bytes that the four channels write. -/
def Dmac.written (bits : ℕ) (d : Dmac) : Set ℕ := {a | ∃ c, a ∈ (d.channel c).written bits}

end RCar.Cr7
