import RCarM3N.Model.DramNodes
import RCarM3N.Proofs.LoadArea

/-! When the memory nodes describe the DRAM: with no populated channel but the first, and at most
2 GiB on it. The buffer of the names keeps the last digit of a longer name, and the first channel
takes all of its size in the 32-bit space. -/

namespace RCar.Bl2

open Fastboot (CStr ascii cstrOf)

/-! ## What the nodes should say -/

def hexText (n : ℕ) : CStr := (Nat.toDigits 16 n).map fun c => c.toNat.toUInt8

/-- The memory of a channel, over the integers. -/
structure DramRange where
  start : ℕ
  size : ℕ

namespace DramRange

def area (r : DramRange) : Set ℕ := Set.Ico r.start (r.start + r.size)

def nodename (r : DramRange) : CStr := ascii "memory@" ++ hexText r.start

/-- The property `reg` was added last and stands first. -/
def node (r : DramRange) : FdtNode :=
  ⟨r.nodename, [(ascii "reg", cpuToFdt64 (UInt64.ofNat r.start) ++ cpuToFdt64 (UInt64.ofNat r.size)),
    (ascii "device_type", ascii "memory" ++ [0])]⟩

end DramRange

def reserved : ℕ := 0x8000000

namespace DramConfig

variable (config : DramConfig)

def Populated (chan : Fin 4) : Prop := config.size chan ≠ 0

instance (chan : Fin 4) : Decidable (config.Populated chan) := inferInstanceAs (Decidable (_ ≠ _))

/-- The first channel begins in the 32-bit space, behind what is reserved. -/
def range (chan : Fin 4) : DramRange :=
  if chan = 0 then ⟨0x40000000 + reserved, (config.size 0).toNat - reserved⟩
  else ⟨(config.start chan).toNat, (config.size chan).toNat⟩

end DramConfig

/-- One node for each populated channel, and ranges that are the DRAM's. -/
structure Advertised (config : DramConfig) (fdt : Fdt) : Prop where
  nodes : fdt.nodes = ((List.finRange 4).filter fun c => config.Populated c).map fun c => (config.range c).node
  noUnderflow : config.Populated 0 → reserved ≤ (config.size 0).toNat
  disjoint : ∀ c d, config.Populated c → config.Populated d → c ≠ d →
    Disjoint (config.range c).area (config.range d).area
  window : ∀ c, config.Populated c → ∃ w ∈ [legacyWindow, window40],
    (config.range c).start ∈ Set.Ico w.start w.stop ∧ (config.range c).area ⊆ Set.Ico w.start w.stop

/-! ## Adding a node -/

namespace Fdt

theorem splice_ok {fdt : Fdt} {oldlen newlen : ℕ} (h : fdt.dataSize + newlen ≤ fdt.totalSize) :
    fdt.splice oldlen newlen = some { fdt with dataSize := fdt.dataSize - oldlen + newlen } := by
  unfold splice
  rw [if_neg (by omega)]

theorem findAddString_ok {fdt : Fdt} (s : CStr) (h : fdt.dataSize + (s.length + 1) ≤ fdt.totalSize) :
    ∃ strings size, fdt.findAddString s = some { fdt with strings := strings, dataSize := size } ∧
      size ≤ fdt.dataSize + (s.length + 1) := by
  unfold findAddString
  split
  · exact ⟨fdt.strings, fdt.dataSize, rfl, Nat.le_add_right _ _⟩
  · rw [splice_ok h]
    exact ⟨_, _, rfl, le_rfl⟩

/-- A new property of the first node, where there is room for it. -/
theorem writeProp_new (fdt : Fdt) (n : FdtNode) {rest : List FdtNode} (name : CStr) (val : List UInt8)
    (hnodes : fdt.nodes = n :: rest) (hnew : n.props.lookup name = none)
    (h : fdt.dataSize + (name.length + 1) + (12 + fdtTagalign val.length) ≤ fdt.totalSize) :
    ∃ strings size, fdt.writeProp .first name val =
        some { fdt with nodes := ⟨n.name, (name, val) :: n.props⟩ :: rest, strings := strings, dataSize := size } ∧
      size ≤ fdt.dataSize + (name.length + 1) + (12 + fdtTagalign val.length) := by
  have hprops : fdt.props .first = n.props := by
    rw [props, hnodes]
    rfl
  obtain ⟨strings, size, hstring, hsize⟩ := findAddString_ok name (by omega : fdt.dataSize + (name.length + 1) ≤ _)
  unfold writeProp
  rw [hprops, hnew]
  dsimp only
  rw [hstring, Option.bind_eq_bind, Option.bind_some,
    splice_ok (show size + (12 + fdtTagalign val.length) ≤ fdt.totalSize by omega)]
  refine ⟨strings, size + (12 + fdtTagalign val.length), ?_, by omega⟩
  rw [Option.bind_some]
  simp only [setProps, hnodes, props, List.modifyHead_cons, List.head?_cons, Option.map_some, Option.getD_some,
    Nat.sub_zero]
  rfl

/-- A property of the first node with a longer value. -/
theorem writeProp_old (fdt : Fdt) (n : FdtNode) {rest : List FdtNode} (name : CStr) (val : List UInt8)
    {old : List UInt8} (hnodes : fdt.nodes = n :: rest) (hold : n.props.lookup name = some old)
    (h : fdt.dataSize + fdtTagalign val.length ≤ fdt.totalSize) :
    fdt.writeProp .first name val = some { fdt with
      nodes := ⟨n.name, n.props.map fun p => if p.1 = name then (name, val) else p⟩ :: rest
      dataSize := fdt.dataSize - fdtTagalign old.length + fdtTagalign val.length } := by
  have hprops : fdt.props .first = n.props := by
    rw [props, hnodes]
    rfl
  unfold writeProp
  rw [hprops, hold]
  dsimp only
  rw [splice_ok h]
  simp only [Option.bind_eq_bind, Option.bind_some, setProps, hnodes, List.modifyHead_cons]
  rfl

end Fdt

theorem length_cpuToFdt64 (x : UInt64) : (cpuToFdt64 x).length = 8 := by simp [cpuToFdt64]

/-- The tree has room for `n` more bytes. -/
def Room (fdt : Fdt) (n : ℕ) : Prop := fdt.dataSize + n ≤ fdt.totalSize

/-- What a node takes, at most. -/
def nodeSize : ℕ := 140

theorem addMemoryNode_ok {fdt : Fdt} {name : CStr} {room : ℕ} (hlen : name.length ≤ 30) (hat : name.contains 64 = true)
    (hname : ∀ n ∈ fdt.nodes, n.name ≠ name) (hroom : Room fdt (nodeSize + room)) (start size : UInt64) :
    ∃ fdt', addMemoryNode fdt name start size = some fdt' ∧
      fdt'.nodes = ⟨name, [(ascii "reg", cpuToFdt64 start ++ cpuToFdt64 size),
        (ascii "device_type", ascii "memory" ++ [0])]⟩ :: fdt.nodes ∧ Room fdt' room := by
  unfold Room nodeSize at hroom
  have hdevice : (ascii "device_type").length = 11 := by decide
  have hmemory : (ascii "memory" ++ [0]).length = 7 := by decide
  have hreg : (ascii "reg").length = 3 := by decide
  have halign : fdtTagalign (name.length + 1) ≤ 32 := by
    unfold fdtTagalign
    omega
  -- the node
  have hadd : fdt.addSubnode name = some { fdt with
      nodes := ⟨name, []⟩ :: fdt.nodes
      dataSize := fdt.dataSize + (4 + fdtTagalign (name.length + 1) + FDT_TAGSIZE) } := by
    have hnone : (fdt.nodes.any fun n => Fdt.nodenameEq name n.name) = false := by
      rw [List.any_eq_false]
      intro n hn
      rw [Fdt.nodenameEq, hat]
      simp [hname n hn]
    unfold Fdt.addSubnode
    rw [hnone, if_neg Bool.false_ne_true, Fdt.splice_ok (by unfold FDT_TAGSIZE; omega)]
    rfl
  -- its type
  obtain ⟨strings1, size1, htype, hsize1⟩ := Fdt.writeProp_new { fdt with
      nodes := ⟨name, []⟩ :: fdt.nodes
      dataSize := fdt.dataSize + (4 + fdtTagalign (name.length + 1) + FDT_TAGSIZE) }
    ⟨name, []⟩ (ascii "device_type") (ascii "memory" ++ [0]) rfl rfl (by
      rw [hdevice, hmemory]
      unfold FDT_TAGSIZE fdtTagalign at *
      dsimp only
      omega)
  rw [hdevice, hmemory] at hsize1
  dsimp only at htype hsize1
  -- its start
  have hfresh : ([(ascii "device_type", ascii "memory" ++ [0])] : List (CStr × List UInt8)).lookup (ascii "reg") = none := by
    decide
  obtain ⟨strings2, size2, hstart, hsize2⟩ := Fdt.writeProp_new { fdt with
      nodes := ⟨name, [(ascii "device_type", ascii "memory" ++ [0])]⟩ :: fdt.nodes
      strings := strings1, dataSize := size1 }
    ⟨name, [(ascii "device_type", ascii "memory" ++ [0])]⟩ (ascii "reg") (cpuToFdt64 start) rfl hfresh (by
      rw [hreg, length_cpuToFdt64]
      unfold FDT_TAGSIZE fdtTagalign at *
      dsimp only
      omega)
  rw [hreg, length_cpuToFdt64] at hsize2
  dsimp only at hstart hsize2
  -- its size
  have hlookup : (([(ascii "reg", cpuToFdt64 start), (ascii "device_type", ascii "memory" ++ [0])] :
      List (CStr × List UInt8)).lookup (ascii "reg")) = some (cpuToFdt64 start) := by simp
  have happend := Fdt.writeProp_old { fdt with
      nodes := ⟨name, [(ascii "reg", cpuToFdt64 start), (ascii "device_type", ascii "memory" ++ [0])]⟩ :: fdt.nodes
      strings := strings2, dataSize := size2 }
    ⟨name, [(ascii "reg", cpuToFdt64 start), (ascii "device_type", ascii "memory" ++ [0])]⟩
    (ascii "reg") (cpuToFdt64 start ++ cpuToFdt64 size) rfl hlookup (by
      rw [List.length_append, length_cpuToFdt64, length_cpuToFdt64]
      unfold FDT_TAGSIZE fdtTagalign at *
      dsimp only
      omega)
  refine ⟨_, Eq.trans ?_ happend, ?_, ?_⟩
  · unfold addMemoryNode
    rw [hadd, Option.bind_eq_bind, Option.bind_some, Fdt.setpropString, Fdt.setprop, htype, Option.bind_some,
      Fdt.setprop, hstart, Option.bind_some, Fdt.appendprop]
    have hprops : (Fdt.props { fdt with
        nodes := ⟨name, [(ascii "reg", cpuToFdt64 start), (ascii "device_type", ascii "memory" ++ [0])]⟩ :: fdt.nodes
        strings := strings2, dataSize := size2 } .first).lookup (ascii "reg") = some (cpuToFdt64 start) := hlookup
    rw [hprops]
    rfl
  · have hne : ascii "device_type" ≠ ascii "reg" := by decide
    simp [hne]
  · unfold Room
    rw [List.length_append, length_cpuToFdt64, length_cpuToFdt64]
    unfold FDT_TAGSIZE fdtTagalign at *
    dsimp only
    omega

/-! ## The buffer of the names -/

/-- The table of a build. -/
def tableOf (build : DramBuild) (product : Product) : DramConfig := ⟨dramStart, dramSizes build product⟩

def blank : List UInt8 := List.replicate 32 0

/-- The name of a channel in the 40-bit space, in an empty buffer. -/
def nameBuf (chan : Fin 4) : List UInt8 := overwrite blank 0 (ascii "memory@" ++ hexText (dramStart chan).toNat)

/-- The buffer after the channels in a list, the last one first. -/
def bufOf : List (Fin 4) → List UInt8
  | [] => blank
  | chan :: _ => nameBuf chan

/-- The names of the channels, computed: nine digits cover nine digits, and eight leave the ninth one of
the name before. -/
theorem names_table :
    (∀ chan, chan ≠ 0 → printNodename blank (dramStart chan) = nameBuf chan ∧
      ∀ before, before ≠ 0 → printNodename (nameBuf before) (dramStart chan) = nameBuf chan) ∧
    (∀ chan, chan ≠ 0 → cstrOf (nameBuf chan) = ascii "memory@" ++ hexText (dramStart chan).toNat) ∧
    (∀ c d, c ≠ 0 → d ≠ 0 → c ≠ d → cstrOf (nameBuf c) ≠ cstrOf (nameBuf d)) ∧
    (∀ chan, chan ≠ 0 → (cstrOf (nameBuf chan)).length ≤ 30 ∧ (cstrOf (nameBuf chan)).contains 64 = true) ∧
    (cstrOf (printNodename blank 0x48000000) = ascii "memory@48000000" ∧
      ∀ before, before ≠ 0 → cstrOf (printNodename (nameBuf before) 0x48000000) = ascii "memory@480000000") ∧
    ∀ chan, chan ≠ 0 → cstrOf (nameBuf chan) ≠ ascii "memory@48000000" ∧
      cstrOf (nameBuf chan) ≠ ascii "memory@480000000" := by
  decide +kernel

theorem printNodename_high : ∀ chan, chan ≠ 0 → printNodename blank (dramStart chan) = nameBuf chan ∧
    ∀ before, before ≠ 0 → printNodename (nameBuf before) (dramStart chan) = nameBuf chan :=
  names_table.1

theorem cstrOf_nameBuf : ∀ chan, chan ≠ 0 →
    cstrOf (nameBuf chan) = ascii "memory@" ++ hexText (dramStart chan).toNat :=
  names_table.2.1

theorem nameBuf_ne : ∀ c d, c ≠ 0 → d ≠ 0 → c ≠ d → cstrOf (nameBuf c) ≠ cstrOf (nameBuf d) :=
  names_table.2.2.1

theorem nameBuf_shape : ∀ chan, chan ≠ 0 →
    (cstrOf (nameBuf chan)).length ≤ 30 ∧ (cstrOf (nameBuf chan)).contains 64 = true :=
  names_table.2.2.2.1

theorem printNodename_low : cstrOf (printNodename blank 0x48000000) = ascii "memory@48000000" ∧
    ∀ before, before ≠ 0 → cstrOf (printNodename (nameBuf before) 0x48000000) = ascii "memory@480000000" :=
  names_table.2.2.2.2.1

theorem low_ne_nameBuf : ∀ chan, chan ≠ 0 → cstrOf (nameBuf chan) ≠ ascii "memory@48000000" ∧
    cstrOf (nameBuf chan) ≠ ascii "memory@480000000" :=
  names_table.2.2.2.2.2

/-! ## The channels in the 40-bit space -/

/-- The populated channels but the first, by their start. -/
def highChannels (config : DramConfig) : List (Fin 4) := ([1, 2, 3] : List (Fin 4)).filter fun c => config.Populated c

theorem populated_eq (config : DramConfig) : ((List.finRange 4).filter fun c => config.Populated c) =
    if config.Populated 0 then 0 :: highChannels config else highChannels config := by
  have hlist : List.finRange 4 = [0, 1, 2, 3] := by decide
  rw [hlist]
  split
  · rw [List.filter_cons_of_pos (by simpa)]
    rfl
  · rw [List.filter_cons_of_neg (by simpa)]
    rfl

theorem highChannels_ne {config : DramConfig} {chan : Fin 4} (h : chan ∈ highChannels config) : chan ≠ 0 := by
  have hmem := List.mem_of_mem_filter h
  rintro rfl
  exact absurd hmem (by decide)

section

variable {config : DramConfig} (hstart : config.start = dramStart)

include hstart

theorem node_name {chan : Fin 4} (h : chan ≠ 0) : (config.range chan).node.name = cstrOf (nameBuf chan) := by
  rw [cstrOf_nameBuf chan h, DramConfig.range, if_neg h, hstart]
  rfl

/-- One populated channel puts its node before the others. -/
theorem advertiseChannel_high {fdt : Fdt} {done : List (Fin 4)} {chan : Fin 4} {room : ℕ} (h : chan ≠ 0)
    (hdone : ∀ d ∈ done, d ≠ 0 ∧ d ≠ chan) (hnodes : fdt.nodes = done.map fun c => (config.range c).node)
    (hpop : config.Populated chan) (hroom : Room fdt (nodeSize + room)) :
    ∃ fdt', advertiseChannel config (fdt, bufOf done) chan = some (fdt', bufOf (chan :: done)) ∧
      fdt'.nodes = (chan :: done).map (fun c => (config.range c).node) ∧ Room fdt' room := by
  have hbuf : printNodename (bufOf done) (dramStart chan) = nameBuf chan := by
    cases done with
    | nil => exact (printNodename_high chan h).1
    | cons d done => exact (printNodename_high chan h).2 d (hdone d List.mem_cons_self).1
  have hname : ∀ n ∈ fdt.nodes, n.name ≠ cstrOf (nameBuf chan) := by
    intro n hn
    rw [hnodes] at hn
    obtain ⟨d, hd, rfl⟩ := List.mem_map.mp hn
    obtain ⟨hd0, hdc⟩ := hdone d hd
    rw [node_name hstart hd0]
    exact nameBuf_ne d chan hd0 h hdc
  obtain ⟨hlen, hat⟩ := nameBuf_shape chan h
  obtain ⟨fdt', hadd, hnodes', hroom'⟩ :=
    addMemoryNode_ok hlen hat hname hroom (dramStart chan) (config.size chan)
  refine ⟨fdt', ?_, ?_, hroom'⟩
  · unfold advertiseChannel
    rw [if_neg hpop]
    simp only [if_neg h, hstart, hbuf, hadd]
    rfl
  · rw [hnodes', hnodes, List.map_cons]
    congr 1
    rw [DramRange.node, DramRange.nodename, DramConfig.range, if_neg h, hstart, cstrOf_nameBuf chan h]
    simp

/-- The channels of a list, one after the other. -/
theorem foldlM_high (l done : List (Fin 4)) {fdt : Fdt} {room : ℕ} (hl : (l.reverse ++ done).Nodup)
    (hzero : ∀ c ∈ l.reverse ++ done, c ≠ 0) (hnodes : fdt.nodes = done.map fun c => (config.range c).node)
    (hroom : Room fdt (nodeSize * l.length + room)) :
    ∃ fdt', l.foldlM (advertiseChannel config) (fdt, bufOf done) =
        some (fdt', bufOf ((l.filter fun c => config.Populated c).reverse ++ done)) ∧
      fdt'.nodes = ((l.filter fun c => config.Populated c).reverse ++ done).map (fun c => (config.range c).node) ∧
      Room fdt' room := by
  induction l generalizing done fdt with
  | nil => exact ⟨fdt, rfl, hnodes, by simpa using hroom⟩
  | cons chan l ih =>
    rw [List.reverse_cons, List.append_assoc, List.singleton_append] at hl hzero
    rw [List.length_cons, Nat.mul_add, Nat.mul_one] at hroom
    have hchan : chan ≠ 0 := hzero chan (by simp)
    by_cases hpop : config.Populated chan
    · have hdone : ∀ d ∈ done, d ≠ 0 ∧ d ≠ chan := by
        intro d hd
        refine ⟨hzero d (by simp [hd]), ?_⟩
        rintro rfl
        have := (List.nodup_append.mp hl).2.1
        exact (List.nodup_cons.mp this).1 hd
      have hroom1 : Room fdt (nodeSize + (nodeSize * l.length + room)) := by
        unfold Room at hroom ⊢
        omega
      obtain ⟨fdt1, hrun1, hnodes1, hroom1⟩ := advertiseChannel_high hstart hchan hdone hnodes hpop hroom1
      obtain ⟨fdt2, hrun2, hnodes2, hroom2⟩ := ih (chan :: done) hl hzero hnodes1 hroom1
      refine ⟨fdt2, ?_, ?_, hroom2⟩
      · rw [List.foldlM_cons, hrun1, List.filter_cons_of_pos (by simpa using hpop), List.reverse_cons,
          List.append_assoc]
        exact hrun2
      · rw [hnodes2, List.filter_cons_of_pos (by simpa using hpop), List.reverse_cons, List.append_assoc]
        rfl
    · have hrun1 : advertiseChannel config (fdt, bufOf done) chan = some (fdt, bufOf done) := by
        unfold advertiseChannel
        rw [if_pos (not_not.mp hpop)]
        rfl
      have hroom1 : Room fdt (nodeSize * l.length + room) := by
        unfold Room at hroom ⊢
        omega
      have hl1 : (l.reverse ++ done).Nodup :=
        hl.sublist ((List.sublist_cons_self chan done).append_left l.reverse)
      obtain ⟨fdt2, hrun2, hnodes2, hroom2⟩ := ih done hl1 (fun c hc => hzero c (by
        rcases List.mem_append.mp hc with hc | hc <;> simp [hc])) hnodes hroom1
      refine ⟨fdt2, ?_, ?_, hroom2⟩
      · rw [List.foldlM_cons, hrun1, List.filter_cons_of_neg (by simpa using hpop)]
        exact hrun2
      · rw [hnodes2, List.filter_cons_of_neg (by simpa using hpop)]

/-- The name that the first channel gets. -/
def lowName (config : DramConfig) : CStr :=
  if highChannels config = [] then ascii "memory@48000000" else ascii "memory@480000000"

/-- What the function leaves: the nodes of the other channels, and before them that of the first one under the name that
the buffer makes of it. -/
theorem entries_nodes {fdt : Fdt} (hnodes : fdt.nodes = []) (hroom : Room fdt 1000) :
    ∃ fdt', bl2AdvertiseDramEntries fdt config = some fdt' ∧ fdt'.nodes =
      (if config.Populated 0 then [⟨lowName config, [(ascii "reg", cpuToFdt64 0x48000000 ++
          cpuToFdt64 (config.size 0 - 0x8000000)), (ascii "device_type", ascii "memory" ++ [0])]⟩] else []) ++
        (highChannels config).map fun c => (config.range c).node := by
  have hroom1 : Room fdt (nodeSize * ([3, 2, 1] : List (Fin 4)).length + (nodeSize + 0)) := by
    unfold Room nodeSize at *
    simp only [List.length_cons, List.length_nil]
    omega
  obtain ⟨fdt1, hrun1, hnodes1, hroom1⟩ := foldlM_high hstart [3, 2, 1] [] (by decide) (by decide)
    (by rw [hnodes]; rfl) hroom1
  have hhigh : (([3, 2, 1] : List (Fin 4)).filter fun c => config.Populated c).reverse ++ [] = highChannels config := by
    rw [List.append_nil, ← List.filter_reverse]
    rfl
  rw [hhigh] at hrun1 hnodes1
  have hfold : ∀ r, advertiseChannel config (fdt1, bufOf (highChannels config)) 0 = some r →
      bl2AdvertiseDramEntries fdt config = some r.1 := by
    intro r hr
    unfold bl2AdvertiseDramEntries
    rw [show ([3, 2, 1, 0] : List (Fin 4)) = [3, 2, 1] ++ [0] from rfl, List.foldlM_append]
    change Option.map Prod.fst (Option.bind (([3, 2, 1] : List (Fin 4)).foldlM (advertiseChannel config)
      (fdt, bufOf [])) fun s => ([0] : List (Fin 4)).foldlM (advertiseChannel config) s) = some r.1
    rw [hrun1, Option.bind_some, List.foldlM_cons, hr]
    rfl
  by_cases hpop : config.Populated 0
  · have hname : cstrOf (printNodename (bufOf (highChannels config)) 0x48000000) = lowName config := by
      unfold lowName
      cases hh : highChannels config with
      | nil =>
        rw [if_pos rfl]
        exact printNodename_low.1
      | cons c rest =>
        rw [if_neg (List.cons_ne_nil c rest)]
        exact printNodename_low.2 c (highChannels_ne (by rw [hh]; exact List.mem_cons_self))
    have hfresh : ∀ n ∈ fdt1.nodes, n.name ≠ lowName config := by
      intro n hn
      rw [hnodes1] at hn
      obtain ⟨c, hc, rfl⟩ := List.mem_map.mp hn
      have hc0 := highChannels_ne hc
      rw [node_name hstart hc0]
      unfold lowName
      split
      · exact (low_ne_nameBuf c hc0).1
      · exact (low_ne_nameBuf c hc0).2
    have hshape : (lowName config).length ≤ 30 ∧ (lowName config).contains 64 = true := by
      unfold lowName
      split <;> decide
    obtain ⟨fdt2, hadd, hnodes2, -⟩ :=
      addMemoryNode_ok hshape.1 hshape.2 hfresh hroom1 0x48000000 (config.size 0 - 0x8000000)
    refine ⟨fdt2, hfold (fdt2, printNodename (bufOf (highChannels config)) 0x48000000) ?_, ?_⟩
    · unfold advertiseChannel
      rw [if_neg hpop]
      simp only [if_true, hname, hadd]
      rfl
    · rw [hnodes2, hnodes1, if_pos hpop]
      rfl
  · refine ⟨fdt1, hfold (fdt1, bufOf (highChannels config)) ?_, ?_⟩
    · unfold advertiseChannel
      rw [if_pos (not_not.mp hpop)]
      rfl
    · rw [hnodes1, if_neg hpop]
      rfl

end

/-! ## The tables -/

theorem tableOf_start (build : DramBuild) (product : Product) : (tableOf build product).start = dramStart := rfl

/-- What all tables have in common. -/
theorem dramSizes_bounds (build : DramBuild) (product : Product) :
    (∀ c, (dramSizes build product c).toNat ≤ 0x100000000) ∧
      (dramSizes build product 0 ≠ 0 → 0x20000000 ≤ (dramSizes build product 0).toNat) := by
  unfold dramSizes
  cases product
  all_goals dsimp only
  all_goals repeat' split
  all_goals decide

/-- Each channel has 4 GiB of its own. -/
def block : Fin 4 → ℕ := ![0x40000000, 0x500000000, 0x600000000, 0x700000000]

theorem block_apart : ∀ c d : Fin 4, c ≠ d → block c + 0x100000000 ≤ block d ∨ block d + 0x100000000 ≤ block c := by
  decide

theorem dramStart_eq : ∀ c : Fin 4, c ≠ 0 → (dramStart c).toNat = block c := by
  decide

theorem block_window : ∀ c : Fin 4, c ≠ 0 → window40.start ≤ block c ∧ block c + 0x100000000 ≤ window40.stop := by
  decide

variable (build : DramBuild) (product : Product)

theorem area_subset_block (c : Fin 4) :
    ((tableOf build product).range c).area ⊆ Set.Ico (block c) (block c + 0x100000000) := by
  have hsize := (dramSizes_bounds build product).1 c
  rintro a ⟨hlow, hhigh⟩
  unfold DramConfig.range at hlow hhigh
  by_cases hc : c = 0
  · subst hc
    simp only [if_true, tableOf, reserved] at hlow hhigh
    have hblock : block 0 = 0x40000000 := rfl
    rw [Set.mem_Ico, hblock]
    omega
  · simp only [if_neg hc, tableOf, dramStart_eq c hc] at hlow hhigh
    exact ⟨hlow, by omega⟩

theorem areas_disjoint {c d : Fin 4} (h : c ≠ d) :
    Disjoint ((tableOf build product).range c).area ((tableOf build product).range d).area := by
  refine Set.disjoint_of_subset (area_subset_block build product c) (area_subset_block build product d) ?_
  rw [Set.disjoint_left]
  rintro a ⟨h1, h2⟩ ⟨h3, h4⟩
  have := block_apart c d h
  omega

theorem window_high {c : Fin 4} (h : c ≠ 0) (hpop : (tableOf build product).Populated c) :
    ∃ w ∈ [legacyWindow, window40], ((tableOf build product).range c).start ∈ Set.Ico w.start w.stop ∧
      ((tableOf build product).range c).area ⊆ Set.Ico w.start w.stop := by
  obtain ⟨hlow, hhigh⟩ := block_window c h
  have hstart : ((tableOf build product).range c).start = block c := by
    rw [DramConfig.range, if_neg h]
    exact dramStart_eq c h
  refine ⟨window40, by simp, ⟨?_, ?_⟩, ?_⟩
  · rw [hstart]
    exact hlow
  · rw [hstart]
    omega
  · exact (area_subset_block build product c).trans (Set.Ico_subset_Ico hlow hhigh)

/-- The first channel lies in the 32-bit window up to 2 GiB. -/
theorem window_low (hpop : (tableOf build product).Populated 0) :
    (∃ w ∈ [legacyWindow, window40], ((tableOf build product).range 0).start ∈ Set.Ico w.start w.stop ∧
      ((tableOf build product).range 0).area ⊆ Set.Ico w.start w.stop) ↔
      (dramSizes build product 0).toNat ≤ 0x80000000 := by
  have hmin := (dramSizes_bounds build product).2 hpop
  have hrange : (tableOf build product).range 0 = ⟨0x48000000, (dramSizes build product 0).toNat - 0x8000000⟩ := rfl
  rw [hrange]
  constructor
  · rintro ⟨w, hw, ⟨hstart, -⟩, hsub⟩
    have hlast := hsub (show 0x48000000 + ((dramSizes build product 0).toNat - 0x8000000) - 1 ∈ DramRange.area _ from
      ⟨by dsimp only; omega, by dsimp only; omega⟩)
    rcases List.mem_pair.mp hw with rfl | rfl
    · have hlt := hlast.2
      simp only [legacyWindow] at hlt
      omega
    · simp only [window40] at hstart
      omega
  · intro hle
    have hstart : (0x48000000 : ℕ) ∈ Set.Ico legacyWindow.start legacyWindow.stop := ⟨by decide, by decide⟩
    refine ⟨legacyWindow, by simp, hstart, ?_⟩
    rintro a ⟨hlow, hhigh⟩
    dsimp only at hlow hhigh
    simp only [legacyWindow, Set.mem_Ico]
    omega

/-! ## When the nodes are right -/

theorem highChannels_eq_nil {config : DramConfig} :
    highChannels config = [] ↔ ∀ c, c ≠ 0 → ¬ config.Populated c := by
  unfold highChannels
  rw [List.filter_eq_nil_iff]
  constructor
  · intro h c hc
    have hmem : c ∈ ([1, 2, 3] : List (Fin 4)) := by
      revert c
      decide
    simpa using h c hmem
  · intro h c hc
    have hne : c ≠ 0 := by
      rintro rfl
      exact absurd hc (by decide)
    simpa using h c hne

theorem populate_ok (board : Board) {product : Product} (h : product ≠ .other) :
    ∃ fdt, bl2PopulateCompatibleString board product (Fdt.empty PAGE_SIZE_4KB) = some fdt ∧ fdt.nodes = [] ∧
      Room fdt 1000 := by
  have hall : (bl2PopulateCompatibleString board product (Fdt.empty PAGE_SIZE_4KB)).map
      (fun t => t.nodes.isEmpty && decide (t.dataSize + 1000 ≤ t.totalSize)) = some true := by
    cases product
    case other => exact absurd rfl h
    all_goals cases board <;> decide +kernel
  obtain ⟨fdt, hrun, hfdt⟩ := Option.map_eq_some_iff.mp hall
  obtain ⟨hnodes, hroom⟩ := (Bool.and_eq_true_iff).mp hfdt
  have hle : fdt.dataSize + 1000 ≤ fdt.totalSize := of_decide_eq_true hroom
  exact ⟨fdt, hrun, List.isEmpty_iff.mp hnodes, hle⟩

/-- The right node of the first channel. -/
theorem lowNode_eq_iff (hpop : (tableOf build product).Populated 0) :
    (⟨lowName (tableOf build product), [(ascii "reg", cpuToFdt64 0x48000000 ++
      cpuToFdt64 (dramSizes build product 0 - 0x8000000)), (ascii "device_type", ascii "memory" ++ [0])]⟩ : FdtNode) =
        ((tableOf build product).range 0).node ↔ highChannels (tableOf build product) = [] := by
  have hmin := (dramSizes_bounds build product).2 hpop
  have hsize : dramSizes build product 0 - 0x8000000 =
      UInt64.ofNat ((dramSizes build product 0).toNat - 0x8000000) := by
    have hlt := UInt64.toNat_lt (dramSizes build product 0)
    apply UInt64.toNat_inj.mp
    rw [UInt64.toNat_sub_of_le _ _ (by rw [UInt64.le_iff_toNat_le]; exact le_trans (by decide) hmin)]
    rw [UInt64.toNat_ofNat_of_lt' (by unfold UInt64.size; omega)]
    rfl
  have hrange : (tableOf build product).range 0 = ⟨0x48000000, (dramSizes build product 0).toNat - 0x8000000⟩ := rfl
  have hname : ∀ size, DramRange.nodename ⟨0x48000000, size⟩ = ascii "memory@48000000" := by
    intro size
    change ascii "memory@" ++ hexText 0x48000000 = _
    decide +kernel
  rw [hrange, DramRange.node, hname, hsize]
  constructor
  · intro h
    have hlow : lowName (tableOf build product) = ascii "memory@48000000" := congrArg FdtNode.name h
    by_contra hne
    rw [lowName, if_neg hne] at hlow
    exact absurd hlow (by decide)
  · intro h
    rw [lowName, if_pos h]
    rfl

theorem advertise_iff (board : Board) (hproduct : product ≠ .other) :
    (∃ fdt, setUpFdt board build product = some fdt ∧ Advertised (tableOf build product) fdt) ↔
      ((tableOf build product).Populated 0 → (dramSizes build product 0).toNat ≤ 0x80000000 ∧
        ∀ c, c ≠ 0 → ¬ (tableOf build product).Populated c) := by
  obtain ⟨fdt0, hpopulate, hnodes0, hroom0⟩ := populate_ok board hproduct
  obtain ⟨fdt, hentries, hnodes⟩ := entries_nodes (tableOf_start build product) hnodes0 hroom0
  have hset : setUpFdt board build product = some fdt := by
    unfold setUpFdt
    rw [hpopulate]
    exact hentries
  have hexpected := populated_eq (tableOf build product)
  rw [← highChannels_eq_nil]
  constructor
  · rintro ⟨fdt', hrun, hadv⟩ hpop
    obtain rfl : fdt = fdt' := Option.some.inj (hset.symm.trans hrun)
    refine ⟨(window_low build product hpop).mp (hadv.window 0 hpop), ?_⟩
    have heq := hnodes.symm.trans hadv.nodes
    rw [hexpected, if_pos hpop, if_pos hpop, List.map_cons, List.singleton_append] at heq
    exact (lowNode_eq_iff build product hpop).mp (List.cons.inj heq).1
  · intro h
    refine ⟨fdt, hset, ?_, ?_, fun c d _ _ hne => areas_disjoint build product hne, ?_⟩
    · rw [hnodes, hexpected]
      by_cases hpop : (tableOf build product).Populated 0
      · rw [if_pos hpop, if_pos hpop, List.map_cons, List.singleton_append]
        exact congrArg (· :: _) ((lowNode_eq_iff build product hpop).mpr (h hpop).2)
      · rw [if_neg hpop, if_neg hpop]
        rfl
    · exact fun hpop => le_trans (by decide) ((dramSizes_bounds build product).2 hpop)
    · intro c hpop
      by_cases hc : c = 0
      · subst hc
        exact (window_low build product hpop).mpr (h hpop).1
      · exact window_high build product hc hpop

/-! ## Two builds -/

def defaultBuild : DramBuild := ⟨1, 15, 0, 1, 0, 0⟩

/-- On the M3-N with 2 GiB the node is right. -/
theorem advertise_m3n_2gib : ∃ fdt, setUpFdt .salvatorX defaultBuild .M3N = some fdt ∧
    Advertised (tableOf defaultBuild .M3N) fdt :=
  (advertise_iff defaultBuild .M3N .salvatorX (by decide)).mpr (by decide)

/-- The 4 GiB of the M3-N run out of the 32-bit window, and on the H3 the first channel is named
`memory@480000000`. -/
theorem advertise_fails :
    (¬ ∃ fdt, setUpFdt .salvatorX { defaultBuild with lpddr4Memconf := 2 } .M3N = some fdt ∧
      Advertised (tableOf { defaultBuild with lpddr4Memconf := 2 } .M3N) fdt) ∧
    (¬ ∃ fdt, setUpFdt .salvatorX defaultBuild .H3 = some fdt ∧ Advertised (tableOf defaultBuild .H3) fdt) := by
  constructor
  · rintro ⟨fdt, -, h⟩
    have hpop : (tableOf { defaultBuild with lpddr4Memconf := 2 } .M3N).Populated 0 := by decide
    exact absurd ((window_low _ _ hpop).mp (h.window 0 hpop)) (by decide)
  · rintro ⟨fdt, hrun, h⟩
    have hname : (setUpFdt .salvatorX defaultBuild .H3).map (fun t => t.nodes.head?.map FdtNode.name) =
        some (some (ascii "memory@480000000")) := by decide +kernel
    rw [hrun, Option.map_some, h.nodes] at hname
    exact absurd hname (by decide +kernel)

end RCar.Bl2
