import FlowSim.Dram.DRAMChannel
import FlowSim.Lib.MixedRadix

/-!
Where an address is. Seen from its least significant bit, an address is a number in
mixed radix, with one field for each size of the configuration; the place of a bank is
one too, of the fields of bank, bank group and rank. So an address that the fields
cover can be told from its offset, channel, bank, column and row.
-/
namespace FlowSim.Dram
open FlowSim.Lib
set_option linter.unusedSimpArgs false

/-! ### Bits -/

/-- The zeros below the only one of a power of two say which power it is. -/
theorem isPowerOfTwo_spec {n : UInt32} (power : isPowerOfTwo n = true) :
    n.toNat = 2 ^ (trailingZeros32 n).toNat ∧ (trailingZeros32 n).toNat < 32 := by
  simp only [isPowerOfTwo,Bool.and_eq_true,decide_eq_true_eq,beq_iff_eq] at power
  obtain ⟨pos,mixed⟩ := power
  have nonzero : n.toNat ≠ 0 := Nat.pos_iff_ne_zero.mp (UInt32.lt_iff_toNat_lt.mp pos)
  have one_le : (1 : UInt32) ≤ n := UInt32.le_iff_toNat_le.mpr (Nat.one_le_iff_ne_zero.mpr nonzero)
  have masked : n.toNat &&& (n.toNat - 1) = 0 := by
    rw [show n.toNat - 1 = (n - 1).toNat from (UInt32.toNat_sub_of_le n 1 one_le).symm,← UInt32.toNat_and,mixed]
    rfl
  obtain ⟨k,is_pow⟩ := (Nat.and_sub_one_eq_zero_iff_isPowerOfTwo nonzero).mp masked
  have small : k < 32 := by
    have bound := n.toNat_lt
    rw [is_pow] at bound
    exact (Nat.pow_lt_pow_iff_right (by decide)).mp bound
  have zeros : trailingZeros32 n = UInt32.ofNat k := by
    have found : (List.range 32).find? (fun i => n.toNat.testBit i) = some k := by
      rw [is_pow,List.find?_range_eq_some]
      refine ⟨by simp,List.mem_range.mpr small,?_⟩
      intro j below
      simp [Nat.testBit_two_pow,Nat.ne_of_gt below]
    rw [trailingZeros32,found]
    rfl
  have exponent : (trailingZeros32 n).toNat = k := by
    rw [zeros]
    exact UInt32.toNat_ofNat_of_lt' (small.trans (by decide))
  rw [exponent]
  exact ⟨is_pow,small⟩

theorem toNat_shiftRight (addr : UInt64) (shift : UInt32) : (shiftRight addr shift).toNat = addr.toNat / 2 ^ shift.toNat := by
  unfold shiftRight
  split_ifs with short
  · have below : shift.toNat < 64 := UInt32.lt_iff_toNat_lt.mp short
    rw [UInt64.toNat_shiftRight,UInt32.toNat_toUInt64,Nat.mod_eq_of_lt below,Nat.shiftRight_eq_div_pow]
  · have long : 64 ≤ shift.toNat := UInt32.le_iff_toNat_le.mp (UInt32.not_lt.mp short)
    have bound : addr.toNat < 2 ^ shift.toNat := lt_of_lt_of_le addr.toNat_lt (Nat.pow_le_pow_right (by decide) long)
    exact (Nat.div_eq_of_lt bound).symm

/-- A field of an address: the bits from `shift` on, as many as the size has. -/
theorem toNat_field (addr : UInt64) (shift : UInt32) {size : UInt32} (power : isPowerOfTwo size = true) :
    (shiftRight addr shift &&& (size - 1).toUInt64).toNat = addr.toNat / 2 ^ shift.toNat % size.toNat := by
  obtain ⟨is_pow,_⟩ := isPowerOfTwo_spec power
  have one_le : (1 : UInt32) ≤ size := by
    rw [UInt32.le_iff_toNat_le,is_pow]
    exact Nat.one_le_two_pow
  rw [UInt64.toNat_and,toNat_shiftRight,UInt32.toNat_toUInt64,UInt32.toNat_sub_of_le _ _ one_le,is_pow]
  exact Nat.and_two_pow_sub_one_eq_mod _ _

/-! ### Fields -/

/-- What tells an address in a channel apart; the offset is the place in the channel's width. -/
structure Location where
  offset : Nat
  channel : Nat
  bankIndex : Nat
  column : Nat
  row : Nat

namespace AddressMapping

/-- The number of bits of an address that the fields cover. -/
def addressBits (m : AddressMapping) : Nat :=
  m.offsetBits.toNat + m.channelBits.toNat + m.bankgroupBits.toNat + m.bankBits.toNat + m.columnBits.toNat +
    m.rankBits.toNat + m.rowBits.toNat

def locate (m : AddressMapping) (channelWidth : UInt32) (addr : UInt64) : Location where
  offset := addr.toNat % channelWidth.toNat
  channel := (m.getChannel addr).toNat
  bankIndex := (m.getBankIndex addr).toNat
  column := (m.getColumn addr).toNat
  row := (m.getRow addr).toNat

end AddressMapping

namespace DRAMConfig

/-- The sizes of the fields of an address, the least significant field first. -/
def sizes (config : DRAMConfig) : List Nat :=
  [config.channelWidth.toNat,config.channels.toNat,config.bankGroups.toNat,config.banks.toNat,config.columns.toNat,
    config.ranks.toNat,config.rows.toNat]

/-- The sizes that the place of a bank is made of. -/
def bankSizes (config : DRAMConfig) : List Nat := [config.banks.toNat,config.bankGroups.toNat,config.ranks.toNat]

def locations (config : DRAMConfig) : Set Location :=
  {at_ | at_.offset < config.channelWidth.toNat ∧ at_.channel < config.channels.toNat ∧
    at_.bankIndex < config.bankSizes.prod ∧ at_.column < config.columns.toNat ∧ at_.row < config.rows.toNat}

end DRAMConfig

section
variable {config : DRAMConfig} {m : AddressMapping} (accepted : AddressMapping.newAddressMapping config = .ok m)
include accepted

/-- A mapping is made only when all sizes are powers of two. -/
theorem newAddressMapping_spec : (isPowerOfTwo config.channels ∧ isPowerOfTwo config.ranks ∧ isPowerOfTwo config.bankGroups ∧
    isPowerOfTwo config.banks ∧ isPowerOfTwo config.rows ∧ isPowerOfTwo config.columns ∧ isPowerOfTwo config.channelWidth) ∧
    m = {
      offsetBits := trailingZeros32 config.channelWidth
      channelBits := trailingZeros32 config.channels
      bankgroupBits := trailingZeros32 config.bankGroups
      bankBits := trailingZeros32 config.banks
      columnBits := trailingZeros32 config.columns
      rankBits := trailingZeros32 config.ranks
      rowBits := trailingZeros32 config.rows
      channelMask := (config.channels - 1).toUInt64
      bankgroupMask := (config.bankGroups - 1).toUInt64
      bankMask := (config.banks - 1).toUInt64
      columnMask := (config.columns - 1).toUInt64
      rankMask := (config.ranks - 1).toUInt64
      rowMask := (config.rows - 1).toUInt64
      ranks := config.ranks
      bankgroups := config.bankGroups
      banks := config.banks } := by
  unfold AddressMapping.newAddressMapping at accepted
  split_ifs at accepted with channels ranks bankGroups banks rows columns channelWidth
  simp only [Bool.not_eq_true,Bool.not_eq_false'] at *
  exact ⟨⟨channels,ranks,bankGroups,banks,rows,columns,channelWidth⟩,(Except.ok.inj accepted).symm⟩

/-- The fields of an address are its digits to the sizes of the configuration. -/
theorem digits_sizes (addr : UInt64) : MixedRadix.digits config.sizes addr.toNat =
    [addr.toNat % config.channelWidth.toNat,(m.getChannel addr).toNat,(m.getBankGroup addr).toNat,(m.getBank addr).toNat,
      (m.getColumn addr).toNat,(m.getRank addr).toNat,(m.getRow addr).toNat] := by
  obtain ⟨⟨channels,ranks,bankGroups,banks,rows,columns,channelWidth⟩,rfl⟩ := newAddressMapping_spec accepted
  obtain ⟨width_pow,width_small⟩ := isPowerOfTwo_spec channelWidth
  obtain ⟨channels_pow,channels_small⟩ := isPowerOfTwo_spec channels
  obtain ⟨groups_pow,groups_small⟩ := isPowerOfTwo_spec bankGroups
  obtain ⟨banks_pow,banks_small⟩ := isPowerOfTwo_spec banks
  obtain ⟨columns_pow,columns_small⟩ := isPowerOfTwo_spec columns
  obtain ⟨ranks_pow,ranks_small⟩ := isPowerOfTwo_spec ranks
  generalize trailingZeros32 config.channelWidth = w at *
  generalize trailingZeros32 config.channels = c at *
  generalize trailingZeros32 config.bankGroups = g at *
  generalize trailingZeros32 config.banks = b at *
  generalize trailingZeros32 config.columns = k at *
  generalize trailingZeros32 config.ranks = r at *
  simp only [DRAMConfig.sizes,MixedRadix.digits,List.cons.injEq,AddressMapping.getChannel,AddressMapping.getBankGroup,
    AddressMapping.getBank,AddressMapping.getColumn,AddressMapping.getRank,AddressMapping.getRow,toNat_field _ _ channels,
    toNat_field _ _ bankGroups,toNat_field _ _ banks,toNat_field _ _ columns,toNat_field _ _ ranks,toNat_field _ _ rows,
    Nat.div_div_eq_div_mul,true_and,and_true]
  -- the shift of a field is the number of bits below it
  have shifts : 2 ^ (w + c).toNat = 2 ^ w.toNat * 2 ^ c.toNat ∧ 2 ^ (w + c + g).toNat = 2 ^ w.toNat * 2 ^ c.toNat * 2 ^ g.toNat ∧
      2 ^ (w + c + g + b).toNat = 2 ^ w.toNat * 2 ^ c.toNat * 2 ^ g.toNat * 2 ^ b.toNat ∧
      2 ^ (w + c + g + b + k).toNat = 2 ^ w.toNat * 2 ^ c.toNat * 2 ^ g.toNat * 2 ^ b.toNat * 2 ^ k.toNat ∧
      2 ^ (w + c + g + b + k + r).toNat = 2 ^ w.toNat * 2 ^ c.toNat * 2 ^ g.toNat * 2 ^ b.toNat * 2 ^ k.toNat * 2 ^ r.toNat := by
    simp only [← pow_add,UInt32.toNat_add]
    refine ⟨?_,?_,?_,?_,?_⟩ <;> exact congrArg (2 ^ ·) (by omega)
  obtain ⟨upTo_channel,upTo_group,upTo_bank,upTo_column,upTo_rank⟩ := shifts
  simp only [width_pow,channels_pow,groups_pow,banks_pow,columns_pow,ranks_pow,upTo_channel,upTo_group,upTo_bank,upTo_column,
    upTo_rank,and_self]

theorem sizes_pos : ∀ size ∈ config.sizes, 0 < size := by
  obtain ⟨⟨channels,ranks,bankGroups,banks,rows,columns,channelWidth⟩,_⟩ := newAddressMapping_spec accepted
  simp only [DRAMConfig.sizes,List.forall_mem_cons]
  rw [(isPowerOfTwo_spec channels).1,(isPowerOfTwo_spec ranks).1,(isPowerOfTwo_spec bankGroups).1,(isPowerOfTwo_spec banks).1,
    (isPowerOfTwo_spec rows).1,(isPowerOfTwo_spec columns).1,(isPowerOfTwo_spec channelWidth).1]
  simp

/-- The sizes of the fields make up the numbers that the covered bits can hold. -/
theorem prod_sizes : config.sizes.prod = 2 ^ m.addressBits := by
  obtain ⟨⟨channels,ranks,bankGroups,banks,rows,columns,channelWidth⟩,rfl⟩ := newAddressMapping_spec accepted
  simp only [DRAMConfig.sizes,AddressMapping.addressBits,List.prod_cons,List.prod_nil,pow_add,Nat.mul_one,Nat.mul_assoc]
  rw [(isPowerOfTwo_spec channels).1,(isPowerOfTwo_spec ranks).1,(isPowerOfTwo_spec bankGroups).1,(isPowerOfTwo_spec banks).1,
    (isPowerOfTwo_spec rows).1,(isPowerOfTwo_spec columns).1,(isPowerOfTwo_spec channelWidth).1]

theorem below_fields (addr : UInt64) : (m.getChannel addr).toNat < config.channels.toNat ∧
    MixedRadix.Below config.bankSizes [(m.getBank addr).toNat,(m.getBankGroup addr).toNat,(m.getRank addr).toNat] ∧
    (m.getColumn addr).toNat < config.columns.toNat ∧ (m.getRow addr).toNat < config.rows.toNat := by
  have below := MixedRadix.below_digits (sizes_pos accepted) addr.toNat
  rw [digits_sizes accepted] at below
  simp only [DRAMConfig.sizes,MixedRadix.below_cons] at below
  obtain ⟨_,channel,group,bank,column,rank,row,_⟩ := below
  exact ⟨channel,.cons bank (.cons group (.cons rank .nil)),column,row⟩

/-- The place of a bank is the number with the digits bank, bank group and rank. -/
theorem toNat_getBankIndex (few : config.bankSizes.prod < 2 ^ 32) (addr : UInt64) : (m.getBankIndex addr).toNat =
    MixedRadix.value config.bankSizes [(m.getBank addr).toNat,(m.getBankGroup addr).toNat,(m.getRank addr).toNat] := by
  have inside := MixedRadix.value_lt (below_fields accepted addr).2.1
  obtain ⟨_,made⟩ := newAddressMapping_spec accepted
  have groups : m.bankgroups = config.bankGroups := congrArg AddressMapping.bankgroups made
  have banks : m.banks = config.banks := congrArg AddressMapping.banks made
  rw [AddressMapping.getBankIndex,groups,banks]
  simp only [UInt64.toNat_add,UInt64.toNat_mul,UInt32.toNat_toUInt64,Nat.mod_mul_mod,Nat.add_mod_mod,Nat.mod_add_mod]
  have same : (m.getRank addr).toNat * config.bankGroups.toNat * config.banks.toNat +
      (m.getBankGroup addr).toNat * config.banks.toNat + (m.getBank addr).toNat =
      MixedRadix.value config.bankSizes [(m.getBank addr).toNat,(m.getBankGroup addr).toNat,(m.getRank addr).toNat] := by
    simp only [DRAMConfig.bankSizes,MixedRadix.value]
    ring
  rw [same]
  exact Nat.mod_eq_of_lt (inside.trans (few.trans (by decide)))

theorem toNat_totalBanks (few : config.bankSizes.prod < 2 ^ 32) : m.totalBanks.toNat = config.bankSizes.prod := by
  obtain ⟨_,rfl⟩ := newAddressMapping_spec accepted
  have same : config.ranks.toNat * config.bankGroups.toNat * config.banks.toNat = config.bankSizes.prod := by
    simp only [DRAMConfig.bankSizes,List.prod_cons,List.prod_nil]
    ring
  simp only [AddressMapping.totalBanks,UInt32.toNat_mul,Nat.mod_mul_mod]
  rw [same]
  exact Nat.mod_eq_of_lt few

theorem getBankIndex_lt (few : config.bankSizes.prod < 2 ^ 32) (addr : UInt64) :
    (m.getBankIndex addr).toNat < m.totalBanks.toNat := by
  rw [toNat_getBankIndex accepted few,toNat_totalBanks accepted few]
  exact MixedRadix.value_lt (below_fields accepted addr).2.1

end

/-! ### Locations -/

/-- The location with the given fields, the place of the bank from the digits of bank, bank
    group and rank. -/
def packed (config : DRAMConfig) : List Nat → Location
  | [offset,channel,group,bank,column,rank,row] =>
    ⟨offset,channel,MixedRadix.value config.bankSizes [bank,group,rank],column,row⟩
  | _ => ⟨0,0,0,0,0⟩

/-- Fields of the given sizes and locations are the same. -/
theorem packed_bijOn {config : DRAMConfig} (pos : ∀ size ∈ config.bankSizes, 0 < size) : Set.BijOn (packed config) {ds | MixedRadix.Below config.sizes ds} config.locations := by
  have fields : ∀ {ds}, MixedRadix.Below config.sizes ds → ∃ offset channel group bank column rank row,
      ds = [offset,channel,group,bank,column,rank,row] ∧ offset < config.channelWidth.toNat ∧ channel < config.channels.toNat ∧
      MixedRadix.Below config.bankSizes [bank,group,rank] ∧ column < config.columns.toNat ∧ row < config.rows.toNat := by
    rintro ds (_ | ⟨offset,_ | ⟨channel,_ | ⟨group,_ | ⟨bank,_ | ⟨column,_ | ⟨rank,_ | ⟨row,_ | _⟩⟩⟩⟩⟩⟩⟩)
    exact ⟨_,_,_,_,_,_,_,rfl,offset,channel,.cons bank (.cons group (.cons rank .nil)),column,row⟩
  refine ⟨?_,?_,?_⟩
  · intro ds below
    obtain ⟨offset,channel,group,bank,column,rank,row,rfl,inside⟩ := fields below
    exact ⟨inside.1,inside.2.1,MixedRadix.value_lt inside.2.2.1,inside.2.2.2⟩
  · intro ds below ds' below' same
    obtain ⟨offset,channel,group,bank,column,rank,row,rfl,_,_,banks,_⟩ := fields below
    obtain ⟨offset',channel',group',bank',column',rank',row',rfl,_,_,banks',_⟩ := fields below'
    simp only [packed,Location.mk.injEq] at same
    obtain ⟨rfl,rfl,sameBank,rfl,rfl⟩ := same
    have digits := congrArg (MixedRadix.digits config.bankSizes) sameBank
    rw [MixedRadix.digits_value banks,MixedRadix.digits_value banks'] at digits
    obtain ⟨rfl,rfl,rfl⟩ : bank = bank' ∧ group = group' ∧ rank = rank' := by simpa using digits
    rfl
  · rintro ⟨offset,channel,bankIndex,column,row⟩ ⟨offset_lt,channel_lt,bank_lt,column_lt,row_lt⟩
    obtain ⟨bank,group,rank,made⟩ : ∃ bank group rank, MixedRadix.digits config.bankSizes bankIndex = [bank,group,rank] :=
      ⟨_,_,_,rfl⟩
    have below := MixedRadix.below_digits pos bankIndex
    have whole := MixedRadix.value_digits bank_lt
    rw [made] at below whole
    obtain ⟨bank_inside,group_inside,rank_inside⟩ : bank < config.banks.toNat ∧ group < config.bankGroups.toNat ∧
        rank < config.ranks.toNat := by
      simpa [DRAMConfig.bankSizes,MixedRadix.Below] using below
    refine ⟨[offset,channel,group,bank,column,rank,row],?_,?_⟩
    · exact .cons offset_lt (.cons channel_lt (.cons group_inside (.cons bank_inside (.cons column_lt
        (.cons rank_inside (.cons row_lt .nil))))))
    · rw [packed,whole]

/-- Addresses below a bound are numbers below it. -/
theorem toNat_bijOn {bits : Nat} (covered : bits ≤ 64) :
    Set.BijOn UInt64.toNat {addr | addr.toNat < 2 ^ bits} {n | n < 2 ^ bits} := by
  refine ⟨fun _ inside => inside,fun _ _ _ _ same => UInt64.toNat_inj.mp same,?_⟩
  intro n inside
  have fits : n < 2 ^ 64 := lt_of_lt_of_le inside (Nat.pow_le_pow_right (by decide) covered)
  have back : (UInt64.ofNat n).toNat = n := UInt64.toNat_ofNat_of_lt' fits
  refine ⟨UInt64.ofNat n,?_,back⟩
  show (UInt64.ofNat n).toNat < 2 ^ bits
  rw [back]
  exact inside

/-- Every location is that of exactly one address below the covered bits, and every bank is
    one of the channel's. -/
theorem locate_bijOn {config : DRAMConfig} {m : AddressMapping} (accepted : AddressMapping.newAddressMapping config = .ok m)
    (few : config.ranks.toNat * config.bankGroups.toNat * config.banks.toNat < 2 ^ 32) (covered : m.addressBits ≤ 64) :
    Set.BijOn (m.locate config.channelWidth) {addr | addr.toNat < 2 ^ m.addressBits} config.locations ∧
      ∀ addr, (m.getBankIndex addr).toNat < m.totalBanks.toNat := by
  have few_banks : config.bankSizes.prod < 2 ^ 32 := by
    have same : config.bankSizes.prod = config.ranks.toNat * config.bankGroups.toNat * config.banks.toNat := by
      simp only [DRAMConfig.bankSizes,List.prod_cons,List.prod_nil]
      ring
    rwa [same]
  have pos := sizes_pos accepted
  constructor
  · have fields : Set.BijOn (fun addr : UInt64 => MixedRadix.digits config.sizes addr.toNat) {addr | addr.toNat < 2 ^ m.addressBits}
        {ds | MixedRadix.Below config.sizes ds} := by
      have numbers := MixedRadix.digits_bijOn pos
      rw [prod_sizes accepted] at numbers
      exact numbers.comp (toNat_bijOn covered)
    have bankPos : ∀ size ∈ config.bankSizes, 0 < size := by
      intro size member
      apply pos
      simp only [DRAMConfig.bankSizes,DRAMConfig.sizes,List.mem_cons] at member ⊢
      tauto
    refine ((packed_bijOn bankPos).comp fields).congr fun addr _ => ?_
    rw [Function.comp_apply,digits_sizes accepted,packed,← toNat_getBankIndex accepted few_banks]
    rfl
  · exact getBankIndex_lt accepted few_banks

/-- The mapping of the default configuration, with 32 bits. -/
def defaultMapping : AddressMapping := (AddressMapping.newAddressMapping defaultDRAMConfig).toOption.get (by decide +kernel)

theorem locate_bijOn_default :
    Set.BijOn (defaultMapping.locate 8) {addr | addr.toNat < 2 ^ defaultMapping.addressBits} defaultDRAMConfig.locations ∧
      ∀ addr, (defaultMapping.getBankIndex addr).toNat < defaultMapping.totalBanks.toNat :=
  @locate_bijOn defaultDRAMConfig defaultMapping rfl (by decide) (by decide +kernel)

end FlowSim.Dram
