import VibesWaf.Go.NetIP

/-!
# Networks as bit prefixes

`IPNet.contains` is Go's `IPNet.Contains`: it compares the masked bytes of the network and of the
address, after both were shortened to four bytes where `To4` does so. `contains_iff` reads it in
bits: a network of `ParseCIDR` that is not IPv4-mapped contains the addresses of its family whose
leading bits are the network's.
-/

namespace VibesWaf

/-! ### The code -/

/-- `networkNumberAndMask`; two empty lists when they do not fit each other. -/
def networkNumberAndMask (n : IPNet) : List UInt8 × List UInt8 :=
  let ip := (to4 n.ip).getD n.ip
  let m := cidrMask (n.bits / 8) n.ones
  if ip.length ≠ 4 ∧ ip.length ≠ 16 then ([], [])
  else if m.length = 4 then if ip.length ≠ 4 then ([], []) else (ip, m)
  else if m.length = 16 then (ip, if ip.length = 4 then m.drop 12 else m)
  else ([], [])

/-- `IPNet.Contains`. -/
def IPNet.contains (n : IPNet) (ip : List UInt8) : Bool :=
  let (nn, m) := networkNumberAndMask n
  let ip := (to4 ip).getD ip
  ip.length = nn.length && List.zipWith (· &&& ·) nn m == List.zipWith (· &&& ·) ip m

/-! ### Bits -/

/-- The bits of a byte, the most significant one first. -/
def byteBits (b : UInt8) : List Bool :=
  (List.range 8).map fun j => (b >>> UInt8.ofNat (7 - j)) &&& 1 == 1

/-- The bits of an address. -/
def addrBits (ip : List UInt8) : List Bool :=
  ip.flatMap byteBits

@[simp] theorem length_byteBits (b : UInt8) : (byteBits b).length = 8 := by
  simp [byteBits]

@[simp] theorem length_addrBits (ip : List UInt8) : (addrBits ip).length = 8 * ip.length := by
  simp [addrBits, Nat.mul_comm]

@[simp] theorem addrBits_cons (b : UInt8) (ip : List UInt8) :
    addrBits (b :: ip) = byteBits b ++ addrBits ip :=
  rfl

/-- A shifted and masked bit is the bit of the byte's value. -/
private theorem bit_eq_testBit (b : UInt8) {k : ℕ} (hk : k < 8) :
    ((b >>> UInt8.ofNat k) &&& 1 == 1) = b.toNat.testBit k := by
  have hshift : (UInt8.ofNat k).toNat % 8 = k := by
    rw [UInt8.toNat_ofNat']
    omega
  rw [Bool.eq_iff_iff, beq_iff_eq, ← UInt8.toNat_inj, UInt8.toNat_and, UInt8.toNat_shiftRight,
    hshift, UInt8.toNat_one, Nat.and_one_is_mod, Nat.testBit_eq_decide_div_mod_eq,
    decide_eq_true_eq, Nat.shiftRight_eq_div_pow]

/-- A byte is its eight bits. -/
private theorem byte_ext {a b : UInt8} (h : ∀ k < 8, a.toNat.testBit k = b.toNat.testBit k) : a = b := by
  apply UInt8.toNat_inj.mp
  apply Nat.eq_of_testBit_eq
  intro k
  by_cases hk : k < 8
  · exact h k hk
  · have hpow : 2 ^ 8 ≤ 2 ^ k := Nat.pow_le_pow_right (by decide) (not_lt.mp hk)
    rw [Nat.testBit_lt_two_pow (a.toNat_lt.trans_le hpow),
      Nat.testBit_lt_two_pow (b.toNat_lt.trans_le hpow)]

/-- The bits of the byte of a mask in which the ones end. -/
private theorem partial_testBit : ∀ n < 8, ∀ k < 8,
    (~~~((0xFF : UInt8) >>> UInt8.ofNat n)).toNat.testBit k = decide (8 ≤ k + n) := by
  decide

/-- Under that byte two bytes agree when their leading bits do. -/
private theorem and_partial_eq_iff {a b : UInt8} {n : ℕ} (hn : n < 8) :
    a &&& ~~~((0xFF : UInt8) >>> UInt8.ofNat n) = b &&& ~~~((0xFF : UInt8) >>> UInt8.ofNat n) ↔
      ∀ k < 8, 8 ≤ k + n → a.toNat.testBit k = b.toNat.testBit k := by
  constructor
  · intro h k hk hkn
    have hbit := congrArg (fun c : UInt8 => c.toNat.testBit k) h
    simp only [UInt8.toNat_and, Nat.testBit_and, partial_testBit n hn k hk] at hbit
    simpa [hkn] using hbit
  · intro h
    apply byte_ext
    intro k hk
    rw [UInt8.toNat_and, UInt8.toNat_and, Nat.testBit_and, Nat.testBit_and,
      partial_testBit n hn k hk]
    by_cases hkn : 8 ≤ k + n
    · rw [h k hk hkn]
    · simp [hkn]

/-- The leading bits of a byte are the high bits of its value. -/
private theorem take_byteBits_eq_iff {a b : UInt8} {n : ℕ} (hn : n ≤ 8) :
    (byteBits a).take n = (byteBits b).take n ↔
      ∀ k < 8, 8 ≤ k + n → a.toNat.testBit k = b.toNat.testBit k := by
  rw [byteBits, byteBits, ← List.map_take, ← List.map_take, List.take_range, min_eq_left hn,
    List.map_inj_left]
  constructor
  · intro h k hk hkn
    have := h (7 - k) (List.mem_range.mpr (by omega))
    rwa [bit_eq_testBit _ (by omega), bit_eq_testBit _ (by omega), show 7 - (7 - k) = k by omega]
      at this
  · intro h j hj
    have hj := List.mem_range.mp hj
    rw [bit_eq_testBit _ (by omega), bit_eq_testBit _ (by omega)]
    exact h _ (by omega) (by omega)

private theorem byteBits_inj {a b : UInt8} (h : byteBits a = byteBits b) : a = b := by
  apply byte_ext
  intro k hk
  refine (take_byteBits_eq_iff (le_refl 8)).mp ?_ k hk (by omega)
  rw [h]

/-- **Masks are prefixes.** Two addresses agree under a mask exactly when they agree in as many
leading bits as the mask has ones. -/
theorem masked_eq_iff {x y : List UInt8} {l n : ℕ} (hx : x.length = l) (hy : y.length = l) :
    List.zipWith (· &&& ·) x (cidrMask l n) = List.zipWith (· &&& ·) y (cidrMask l n) ↔
      (addrBits x).take n = (addrBits y).take n := by
  induction l generalizing x y n with
  | zero =>
    rw [List.eq_nil_of_length_eq_zero hx, List.eq_nil_of_length_eq_zero hy]
    exact iff_of_true rfl rfl
  | succ l ih =>
    obtain ⟨a, x, rfl⟩ := List.exists_cons_of_length_eq_add_one hx
    obtain ⟨b, y, rfl⟩ := List.exists_cons_of_length_eq_add_one hy
    have hx' : x.length = l := by simpa using hx
    have hy' : y.length = l := by simpa using hy
    rw [addrBits_cons, addrBits_cons, cidrMask]
    by_cases hn : 8 ≤ n
    · have hand (c : UInt8) : c &&& 0xFF = c := UInt8.and_neg_one
      have htake (c : UInt8) : (byteBits c).take n = byteBits c :=
        List.take_of_length_le (by simpa using hn)
      rw [if_pos hn, List.zipWith_cons_cons, List.zipWith_cons_cons, List.cons.injEq, ih hx' hy',
        List.take_append, List.take_append, length_byteBits, length_byteBits, hand, hand,
        htake, htake]
      constructor
      · rintro ⟨rfl, hrest⟩
        rw [hrest]
      · intro h
        obtain ⟨hab, hrest⟩ := List.append_inj h (by simp)
        exact ⟨byteBits_inj hab, hrest⟩
    · have hn' : n ≤ 8 := by omega
      have hrest : List.zipWith (· &&& ·) x (cidrMask l 0) =
          List.zipWith (· &&& ·) y (cidrMask l 0) := (ih hx' hy').mpr rfl
      rw [if_neg hn, List.zipWith_cons_cons, List.zipWith_cons_cons, hrest, List.cons.injEq,
        and_iff_left rfl, and_partial_eq_iff (not_le.mp hn), ← take_byteBits_eq_iff hn',
        List.take_append_of_le_length (by simpa using hn'),
        List.take_append_of_le_length (by simpa using hn')]

/-! ### Networks -/

/-- The bytes an address is looked up with: four when `To4` gives four. -/
def shortIP (a : Bytes 16) : List UInt8 :=
  (to4 a.1).getD a.1

/-- A network with a mask of 128 bits whose address is an IPv4-mapped one. -/
def IPNet.mapped (net : IPNet) : Bool :=
  net.bits = 128 ∧ (to4 net.ip).isSome

/-- The leading bits of a network's address. -/
def IPNet.path (net : IPNet) : List Bool :=
  (addrBits net.ip).take net.ones

/-- What is known of a network that is not IPv4-mapped: its address has as many bits as its mask,
and `insert` takes the address as it is. -/
theorem parseCIDR_plain {s : GoString} {net : IPNet} (h : parseCIDR s = some net)
    (hmapped : net.mapped = false) :
    net.bits = 8 * net.ip.length ∧ net.ones ≤ 8 * net.ip.length ∧
      (to4 net.ip).or (to16 net.ip) = some net.ip := by
  rcases parseCIDR_cases h with ⟨hbits, hlen, hones⟩ | ⟨hbits, hlen, h4, hones⟩ |
      ⟨hbits, hlen, h4, -, -⟩
  · refine ⟨by omega, by omega, ?_⟩
    rw [to4, if_pos hlen, Option.some_or]
  · refine ⟨by omega, by omega, ?_⟩
    rw [h4, Option.none_or, to16, if_neg (by omega), if_pos hlen]
  · simp [IPNet.mapped, hbits, h4] at hmapped

theorem length_path {s : GoString} {net : IPNet} (h : parseCIDR s = some net)
    (hmapped : net.mapped = false) : net.path.length = net.ones := by
  rw [IPNet.path, List.length_take, length_addrBits]
  exact min_eq_left (parseCIDR_plain h hmapped).2.1

/-! ### Containment -/

/-- The bytes that an address is compared with: four when `To4` gives four. -/
def shortBytes (ip : List UInt8) : List UInt8 :=
  (to4 ip).getD ip

/-- How many leading bits of them a network compares. -/
def IPNet.shortOnes (net : IPNet) : ℕ :=
  if net.mapped then net.ones - 96 else net.ones

/-- The bits that a network compares. -/
def IPNet.shortPath (net : IPNet) : List Bool :=
  (addrBits (shortBytes net.ip)).take net.shortOnes

private theorem drop_cidrMask {k l n : ℕ} (h : 8 * k ≤ n) :
    (cidrMask (k + l) n).drop k = cidrMask l (n - 8 * k) := by
  induction k generalizing n with
  | zero => simp
  | succ k ih =>
    rw [Nat.add_right_comm, cidrMask, if_pos (by omega), List.drop_succ_cons, ih (by omega),
      Nat.sub_sub]
    congr 1
    omega

/-- The bytes and the mask of a network fit each other. -/
private theorem networkNumberAndMask_eq {s : GoString} {net : IPNet} (h : parseCIDR s = some net) :
    networkNumberAndMask net =
        (shortBytes net.ip, cidrMask (shortBytes net.ip).length net.shortOnes) ∧
      net.shortOnes ≤ 8 * (shortBytes net.ip).length := by
  rcases parseCIDR_cases h with ⟨hbits, hlen, hones⟩ | ⟨hbits, hlen, h4, hones⟩ |
      ⟨hbits, hlen, h4, hge, hle⟩
  · have hto : to4 net.ip = some net.ip := if_pos hlen
    have hmapped : net.mapped = false := by simp [IPNet.mapped, hbits]
    simp [networkNumberAndMask, shortBytes, IPNet.shortOnes, hto, hmapped, hbits, hlen,
      length_cidrMask, hones]
  · have hmapped : net.mapped = false := by simp [IPNet.mapped, h4]
    simp [networkNumberAndMask, shortBytes, IPNet.shortOnes, h4, hmapped, hbits, hlen,
      length_cidrMask, hones]
  · have hmapped : net.mapped = true := by simp [IPNet.mapped, h4, hbits]
    have hdrop : (cidrMask (12 + 4) net.ones).drop 12 = cidrMask 4 (net.ones - 96) :=
      drop_cidrMask hge
    have hones : net.ones - 96 ≤ 32 := by omega
    simp [networkNumberAndMask, shortBytes, IPNet.shortOnes, h4, hmapped, hbits, hlen,
      length_cidrMask, hdrop, hones]

/-- **Containment**, for every network: the compared bytes are of one length, and the address has
the bits that the network compares. -/
theorem contains_eq_true_iff {s : GoString} {net : IPNet} (h : parseCIDR s = some net)
    (ip : List UInt8) : net.contains ip = true ↔
      (shortBytes ip).length = (shortBytes net.ip).length ∧
        net.shortPath <+: addrBits (shortBytes ip) := by
  obtain ⟨hnn, hle⟩ := networkNumberAndMask_eq h
  have hcontains : net.contains ip = true ↔
      (shortBytes ip).length = (shortBytes net.ip).length ∧
        List.zipWith (· &&& ·) (shortBytes net.ip)
            (cidrMask (shortBytes net.ip).length net.shortOnes) =
          List.zipWith (· &&& ·) (shortBytes ip)
            (cidrMask (shortBytes net.ip).length net.shortOnes) := by
    rw [IPNet.contains, hnn]
    change (decide (_ = _) && (_ == _)) = true ↔ _
    rw [Bool.and_eq_true, decide_eq_true_eq, beq_iff_eq]
    rfl
  rw [hcontains]
  refine and_congr_right fun hlen => ?_
  have hpath : net.shortPath.length = net.shortOnes := by
    rw [IPNet.shortPath, List.length_take, length_addrBits]
    exact min_eq_left hle
  rw [masked_eq_iff rfl hlen, List.prefix_iff_eq_take, hpath, IPNet.shortPath]

/-- **Containment.** A network that is not IPv4-mapped contains the addresses of its own family
whose leading bits are those of the network. -/
theorem contains_iff {s : GoString} {net : IPNet} (h : parseCIDR s = some net)
    (hmapped : net.mapped = false) (a : Bytes 16) :
    net.contains a.1 = true ↔
      net.bits = 8 * (shortIP a).length ∧ net.path <+: addrBits (shortIP a) := by
  have hshort : shortBytes net.ip = net.ip := by
    rcases parseCIDR_cases h with ⟨-, h4, -⟩ | ⟨-, -, hnone, -⟩ | ⟨hbits, -, hsome, -⟩
    · rw [shortBytes, to4, if_pos h4, Option.getD_some]
    · rw [shortBytes, hnone, Option.getD_none]
    · simp [IPNet.mapped, hbits, hsome] at hmapped
  have hpath : net.shortPath = net.path := by
    rw [IPNet.shortPath, IPNet.shortOnes, hmapped, if_neg Bool.false_ne_true, hshort, IPNet.path]
  obtain ⟨hbits, -, -⟩ := parseCIDR_plain h hmapped
  rw [contains_eq_true_iff h, hshort, hpath]
  refine and_congr_left fun _ => ?_
  change (shortIP a).length = net.ip.length ↔ _
  omega

/-! ### Networks that meet -/

/-- A network contains its own address. -/
theorem contains_self {s : GoString} {net : IPNet} (h : parseCIDR s = some net) :
    net.contains net.ip = true :=
  (contains_eq_true_iff h net.ip).mpr ⟨rfl, List.take_prefix _ _⟩

/-- **Two networks with a common address**: one of them contains the address of the other. -/
theorem contains_or_contains {s s' : GoString} {net net' : IPNet} (h : parseCIDR s = some net)
    (h' : parseCIDR s' = some net') {ip : List UInt8} (hip : net.contains ip = true)
    (hip' : net'.contains ip = true) :
    net.contains net'.ip = true ∨ net'.contains net.ip = true := by
  obtain ⟨hlen, hpath⟩ := (contains_eq_true_iff h ip).mp hip
  obtain ⟨hlen', hpath'⟩ := (contains_eq_true_iff h' ip).mp hip'
  obtain hle | hle := List.prefix_or_prefix_of_prefix hpath hpath'
  · refine .inl ((contains_eq_true_iff h net'.ip).mpr ⟨hlen'.symm.trans hlen, ?_⟩)
    exact hle.trans (List.take_prefix _ _)
  · refine .inr ((contains_eq_true_iff h' net.ip).mpr ⟨hlen.symm.trans hlen', ?_⟩)
    exact hle.trans (List.take_prefix _ _)

private theorem addrBits_inj {x y : List UInt8} (hlen : x.length = y.length)
    (h : addrBits x = addrBits y) : x = y := by
  induction x generalizing y with
  | nil => exact (List.eq_nil_of_length_eq_zero hlen.symm).symm
  | cons a x ih =>
    obtain ⟨b, y, rfl⟩ := List.exists_cons_of_length_eq_add_one hlen.symm
    rw [addrBits_cons, addrBits_cons] at h
    obtain ⟨hab, hrest⟩ := List.append_inj h (by simp)
    rw [byteBits_inj hab, ih (by simpa using hlen) hrest]

/-- A network of a single address contains what is compared like it. -/
theorem shortBytes_of_contains {s : GoString} {net : IPNet} (h : parseCIDR s = some net)
    (hfull : net.shortOnes = 8 * (shortBytes net.ip).length) {ip : List UInt8}
    (hip : net.contains ip = true) : shortBytes ip = shortBytes net.ip := by
  obtain ⟨hlen, hpath⟩ := (contains_eq_true_iff h ip).mp hip
  have hall : net.shortPath = addrBits (shortBytes net.ip) := by
    rw [IPNet.shortPath, hfull, ← length_addrBits, List.take_length]
  rw [hall] at hpath
  refine (addrBits_inj hlen.symm (hpath.eq_of_length ?_)).symm
  rw [length_addrBits, length_addrBits, hlen]

/-- Containment looks at the compared bytes only. -/
theorem contains_congr (net : IPNet) {ip ip' : List UInt8} (h : shortBytes ip = shortBytes ip') :
    net.contains ip = net.contains ip' := by
  rw [shortBytes, shortBytes] at h
  rw [IPNet.contains, IPNet.contains, h]

end VibesWaf
