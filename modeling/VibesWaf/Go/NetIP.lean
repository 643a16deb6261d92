import VibesWaf.Go.Strings

/-!
# Addresses and networks of Go's `net` and `net/netip`

`parseAddr` is `netip.ParseAddr`: dotted IPv4 without leading zeros, and IPv6 with at most one
`::`, an optional embedded IPv4 tail and an optional zone. `parseIP` and `parseCIDR` are the two
functions of `net` built on it: both give up on a zone, and an address is always sixteen bytes,
with IPv4 mapped under `::ffff:0:0/96`.

A network is its masked address and the length of its mask. A mask of an IPv4 text has 32 bits
and one of an IPv6 text 128, also when the IPv6 text is an IPv4-mapped address: `parseCIDR_cases`
lists what this leaves, a network of four bytes, one of sixteen, and a sixteen-byte network with
at least 96 ones whose address `To4` shortens to four bytes.
-/

namespace VibesWaf

/-- A byte sequence of a fixed length. -/
abbrev Bytes (n : ℕ) := { b : List UInt8 // b.length = n }

/-- The bytes of a list of the right length. -/
def toBytes (n : ℕ) (l : List UInt8) : Option (Bytes n) :=
  if h : l.length = n then some ⟨l, h⟩ else none

/-- `netip.Addr`: an IPv4 address, or an IPv6 address with its zone. -/
inductive Addr
  | v4 (b : Bytes 4)
  | v6 (b : Bytes 16) (zone : GoString)
  deriving DecidableEq

/-! ### `netip.ParseAddr` -/

/-- The loop of `parseIPv4Fields`: the value and the number of digits of the current octet, and
the octets before it. -/
def parseIPv4Fields : ℕ → ℕ → List UInt8 → GoString → Option (List UInt8)
  | val, _, fields, [] => if fields.length < 3 then none else some (fields ++ [UInt8.ofNat val])
  | val, digLen, fields, c :: r =>
    if isDigit c then
      if digLen = 1 ∧ val = 0 then none
      else if 255 < val * 10 + (c.toNat - 0x30) then none
      else parseIPv4Fields (val * 10 + (c.toNat - 0x30)) (digLen + 1) fields r
    else if c = 0x2E then
      if digLen = 0 ∨ r = [] ∨ fields.length = 3 then none
      else parseIPv4Fields 0 0 (fields ++ [UInt8.ofNat val]) r
    else none

/-- The value of a hexadecimal digit. -/
def hexValue (c : UInt8) : Option ℕ :=
  if 0x30 ≤ c ∧ c ≤ 0x39 then some (c.toNat - 0x30)
  else if 0x61 ≤ c ∧ c ≤ 0x66 then some (c.toNat - 0x61 + 10)
  else if 0x41 ≤ c ∧ c ≤ 0x46 then some (c.toNat - 0x41 + 10)
  else none

/-- The digits of a group and what follows it. -/
def hexDigits : GoString → List ℕ × GoString
  | [] => ([], [])
  | c :: r =>
    match hexValue c with
    | none => ([], c :: r)
    | some d => (d :: (hexDigits r).1, (hexDigits r).2)

/-- The loop of `parseIPv6`, one group of sixteen bits at a time: the bytes written so far and
the position of `::` among them. The first argument counts the groups there is room for. -/
def parseIPv6Groups : ℕ → GoString → List UInt8 → Option ℕ →
    Option (List UInt8 × Option ℕ × GoString)
  | 0, s, ip, ellipsis => some (ip, ellipsis, s)
  | room + 1, s, ip, ellipsis =>
    let (digits, rest) := hexDigits s
    if digits = [] ∨ 4 < digits.length then none
    else if rest.head? = some 0x2E then
      if (ellipsis = none ∧ ip.length ≠ 12) ∨ 16 < ip.length + 4 then none
      else (parseIPv4Fields 0 0 [] s).map fun fields => (ip ++ fields, ellipsis, [])
    else
      let acc := digits.foldl (fun acc d => acc * 16 + d) 0
      let ip := ip ++ [UInt8.ofNat (acc / 256), UInt8.ofNat (acc % 256)]
      match rest with
      | [] => some (ip, ellipsis, [])
      | [_] => none
      | c :: d :: r =>
        if c ≠ 0x3A then none
        else if d = 0x3A then
          if ellipsis.isSome then none
          else if r = [] then some (ip, some ip.length, [])
          else parseIPv6Groups room r ip (some ip.length)
        else parseIPv6Groups room (d :: r) ip ellipsis

/-- The end of `parseIPv6`: fill the place of `::` with zeros. -/
def expandEllipsis (ip : List UInt8) : Option ℕ → Option (Bytes 16)
  | none => toBytes 16 ip
  | some e =>
    if ip.length < 16 then toBytes 16 (ip.take e ++ List.replicate (16 - ip.length) 0 ++ ip.drop e)
    else none

/-- `parseIPv6` without the zone. -/
def parseIPv6Bytes (s : GoString) : Option (Bytes 16) :=
  let start := if hasPrefix s (str "::") then (s.drop 2, some 0) else (s, none)
  if start.2 = some 0 ∧ start.1 = [] then toBytes 16 (List.replicate 16 0)
  else
    match parseIPv6Groups 8 start.1 [] start.2 with
    | some (ip, ellipsis, []) => expandEllipsis ip ellipsis
    | _ => none

/-- `netip.ParseAddr`. -/
def parseAddr (s : GoString) : Option Addr :=
  match s.find? fun c => c == 0x2E || c == 0x3A || c == 0x25 with
  | some 0x2E => ((parseIPv4Fields 0 0 [] s).bind (toBytes 4)).map Addr.v4
  | some 0x3A =>
    match cut s 0x25 with
    | (s, none) => (parseIPv6Bytes s).map fun b => Addr.v6 b []
    | (s, some zone) => if zone = [] then none else (parseIPv6Bytes s).map fun b => Addr.v6 b zone
  | _ => none

/-! ### Addresses of `net` -/

/-- The twelve bytes in front of an IPv4-mapped address. -/
def v4InV6Prefix : List UInt8 :=
  [0, 0, 0, 0, 0, 0, 0, 0, 0, 0, 0xFF, 0xFF]

/-- `Addr.Zone`. -/
def Addr.zone : Addr → GoString
  | v4 _ => []
  | v6 _ zone => zone

/-- `Addr.BitLen`. -/
def Addr.bitLen : Addr → ℕ
  | v4 _ => 32
  | v6 _ _ => 128

/-- `Addr.As16`. -/
def Addr.as16 : Addr → Bytes 16
  | v4 b => ⟨v4InV6Prefix ++ b.1, by rw [List.length_append, b.2]; rfl⟩
  | v6 b _ => b

/-- `net.ParseIP`. -/
def parseIP (s : GoString) : Option (Bytes 16) :=
  match parseAddr s with
  | some a => if a.zone = [] then some a.as16 else none
  | none => none

/-- `IP.To4`. -/
def to4 (ip : List UInt8) : Option (List UInt8) :=
  if ip.length = 4 then some ip
  else if ip.length = 16 ∧ ip.take 12 = v4InV6Prefix then some (ip.drop 12)
  else none

/-- `IP.To16`. -/
def to16 (ip : List UInt8) : Option (List UInt8) :=
  if ip.length = 4 then some (v4InV6Prefix ++ ip)
  else if ip.length = 16 then some ip
  else none

/-! ### Networks -/

/-- The bytes of `CIDRMask`: a number of bytes, and how many leading bits are set. -/
def cidrMask : ℕ → ℕ → List UInt8
  | 0, _ => []
  | l + 1, n => if 8 ≤ n then 0xFF :: cidrMask l (n - 8)
    else ~~~((0xFF : UInt8) >>> UInt8.ofNat n) :: cidrMask l 0

/-- `net.IPNet` with a mask made by `CIDRMask`: the masked address, the number of leading ones
(the first result of `Mask.Size`) and the length of the mask in bits. -/
structure IPNet where
  ip : List UInt8
  ones : ℕ
  bits : ℕ
  deriving DecidableEq

/-- `IP.Mask` on a sixteen-byte address, with the mask of `CIDRMask(ones, bits)`. -/
def maskIP (ip : Bytes 16) (ones bits : ℕ) : List UInt8 :=
  if bits = 32 ∧ ip.1.take 12 = v4InV6Prefix then
    List.zipWith (· &&& ·) (ip.1.drop 12) (cidrMask 4 ones)
  else List.zipWith (· &&& ·) ip.1 (cidrMask (bits / 8) ones)

/-- `dtoi` on a whole text: its decimal value, below `0xFFFFFF`. -/
def dtoi (s : GoString) : Option ℕ :=
  (decimal s).filter (· < 0xFFFFFF)

/-- `net.ParseCIDR`: the network of an address and a prefix length. -/
def parseCIDR (s : GoString) : Option IPNet :=
  match cut s 0x2F with
  | (_, none) => none
  | (addr, some mask) =>
    match parseAddr addr, dtoi mask with
    | some a, some n =>
      if a.zone ≠ [] ∨ a.bitLen < n then none
      else some ⟨maskIP a.as16 n a.bitLen, n, a.bitLen⟩
    | _, _ => none

/-! ### What `ParseCIDR` returns -/

theorem length_cidrMask (l n : ℕ) : (cidrMask l n).length = l := by
  induction l generalizing n with
  | zero => rfl
  | succ l ih =>
    rw [cidrMask]
    split <;> simp [ih]

/-- A byte of the mask is full only below the number of ones. -/
theorem cidrMask_getElem_eq_full {l n i : ℕ} (h : (cidrMask l n)[i]? = some 0xFF) :
    8 * (i + 1) ≤ n := by
  induction l generalizing n i with
  | zero => simp [cidrMask] at h
  | succ l ih =>
    have hpart : ∀ n < 8, ~~~((0xFF : UInt8) >>> UInt8.ofNat n) ≠ 0xFF := by decide
    rw [cidrMask] at h
    split at h
    · rename_i hn
      cases i with
      | zero => omega
      | succ i =>
        have := ih (by simpa using h)
        omega
    · rename_i hn
      cases i with
      | zero => exact absurd (by simpa using h) (hpart n (by omega))
      | succ i =>
        have := ih (by simpa using h)
        omega

private theorem and_eq_full {a b : UInt8} (h : a &&& b = 0xFF) : b = 0xFF := by
  have hle : a.toNat &&& b.toNat ≤ b.toNat := Nat.and_le_right
  have hval : a.toNat &&& b.toNat = 255 := by
    rw [← UInt8.toNat_and, h]
    rfl
  have hb : b.toNat < 256 := b.toNat_lt
  apply UInt8.toNat_inj.mp
  change b.toNat = 255
  omega

theorem length_maskIP_four {ip : Bytes 16} {ones : ℕ} (h : ip.1.take 12 = v4InV6Prefix) :
    (maskIP ip ones 32).length = 4 := by
  rw [maskIP, if_pos ⟨rfl, h⟩, List.length_zipWith, List.length_drop, ip.2, length_cidrMask]
  rfl

theorem length_maskIP_sixteen (ip : Bytes 16) (ones : ℕ) : (maskIP ip ones 128).length = 16 := by
  rw [maskIP, if_neg (by simp), List.length_zipWith, ip.2, length_cidrMask]
  rfl

/-- A masked IPv6 address is IPv4-mapped only under a mask that covers the twelve bytes of the
prefix: the last of them is full. -/
theorem maskIP_mapped {ip : Bytes 16} {ones : ℕ}
    (h : (maskIP ip ones 128).take 12 = v4InV6Prefix) : 96 ≤ ones := by
  have hbyte : (maskIP ip ones 128)[11]? = some 0xFF := by
    have := congrArg (fun l => l[11]?) h
    rwa [List.getElem?_take_of_lt (by omega)] at this
  rw [maskIP, if_neg (by simp), List.getElem?_zipWith_eq_some] at hbyte
  obtain ⟨a, b, -, hb, hab⟩ := hbyte
  have hfull : b = 0xFF := and_eq_full hab
  rw [hfull] at hb
  have := cidrMask_getElem_eq_full hb
  omega

/-- **The three shapes of a network.** Four bytes with at most 32 ones; sixteen bytes that are no
IPv4-mapped address, with at most 128; or sixteen bytes of an IPv4-mapped address, with at least
96. -/
theorem parseCIDR_cases {s : GoString} {net : IPNet} (h : parseCIDR s = some net) :
    (net.bits = 32 ∧ net.ip.length = 4 ∧ net.ones ≤ 32) ∨
      (net.bits = 128 ∧ net.ip.length = 16 ∧ to4 net.ip = none ∧ net.ones ≤ 128) ∨
      (net.bits = 128 ∧ net.ip.length = 16 ∧ to4 net.ip = some (net.ip.drop 12) ∧
        96 ≤ net.ones ∧ net.ones ≤ 128) := by
  rw [parseCIDR] at h
  split at h
  · cases h
  split at h
  · rename_i a n _ _
    split at h
    · cases h
    rename_i hzone
    obtain ⟨-, hlen⟩ := not_or.mp hzone
    obtain rfl := Option.some.inj h
    rcases a with b | ⟨b, zone⟩
    · have hshort : (maskIP (Addr.v4 b).as16 n 32).length = 4 :=
        length_maskIP_four (List.take_left' rfl)
      exact .inl ⟨rfl, hshort, not_lt.mp hlen⟩
    · have hlong := length_maskIP_sixteen b n
      by_cases hmap : (maskIP b n 128).take 12 = v4InV6Prefix
      · refine .inr (.inr ⟨rfl, hlong, ?_, maskIP_mapped hmap, not_lt.mp hlen⟩)
        exact (if_neg (by change ¬ (maskIP b n 128).length = 4; omega)).trans (if_pos ⟨hlong, hmap⟩)
      · refine .inr (.inl ⟨rfl, hlong, ?_, not_lt.mp hlen⟩)
        exact (if_neg (by change ¬ (maskIP b n 128).length = 4; omega)).trans
          (if_neg fun h => hmap h.2)
  · cases h

/-! ### Texts of addresses -/

private theorem slash_not_mem_of_fields {val digLen : ℕ} {fields r : List UInt8} {s : GoString}
    (h : parseIPv4Fields val digLen fields s = some r) : 0x2F ∉ s := by
  induction s generalizing val digLen fields with
  | nil => exact List.not_mem_nil
  | cons c s ih =>
    rw [parseIPv4Fields] at h
    suffices hc : (0x2F : UInt8) ≠ c ∧ 0x2F ∉ s from List.not_mem_cons_of_ne_of_not_mem hc.1 hc.2
    split at h
    · rename_i hdigit
      split at h
      · cases h
      split at h
      · cases h
      · exact ⟨fun heq => absurd (heq ▸ hdigit) (by decide), ih h⟩
    split at h
    · rename_i hdot
      split at h
      · cases h
      · exact ⟨fun heq => absurd (heq.trans hdot) (by decide), ih h⟩
    · cases h

/-- The digits are what stands before the rest. -/
private theorem hexDigits_append (s : GoString) :
    ∃ digits, s = digits ++ (hexDigits s).2 ∧ 0x2F ∉ digits := by
  induction s with
  | nil => exact ⟨[], rfl, List.not_mem_nil⟩
  | cons c s ih =>
    rw [hexDigits]
    cases hvalue : hexValue c with
    | none => exact ⟨[], rfl, List.not_mem_nil⟩
    | some d =>
      obtain ⟨digits, heq, hslash⟩ := ih
      have hc : 0x2F ≠ c := fun hc => by
        have hnone : hexValue 0x2F = none := by decide
        rw [← hc, hnone] at hvalue
        cases hvalue
      exact ⟨c :: digits, congrArg (c :: ·) heq, List.not_mem_cons_of_ne_of_not_mem hc hslash⟩

/-- A slash is not consumed. -/
private theorem slash_mem_of_groups {room : ℕ} {s rest : GoString} {ip ip' : List UInt8}
    {ellipsis ellipsis' : Option ℕ}
    (h : parseIPv6Groups room s ip ellipsis = some (ip', ellipsis', rest)) (hs : 0x2F ∈ s) :
    0x2F ∈ rest := by
  induction room generalizing s ip ellipsis with
  | zero =>
    rw [parseIPv6Groups] at h
    simp only [Option.some.injEq, Prod.mk.injEq] at h
    exact h.2.2 ▸ hs
  | succ room ih =>
    obtain ⟨digits, heq, hdigits⟩ := hexDigits_append s
    have hrest : 0x2F ∈ (hexDigits s).2 := by
      rw [heq] at hs
      exact (List.mem_append.mp hs).resolve_left hdigits
    rw [parseIPv6Groups] at h
    dsimp only at h
    split at h
    · cases h
    split at h
    · split at h
      · cases h
      · obtain ⟨fields, hfields, -⟩ := Option.map_eq_some_iff.mp h
        exact absurd hs (slash_not_mem_of_fields hfields)
    · split at h
      · rename_i hnil
        rw [hnil] at hrest
        cases hrest
      · cases h
      · rename_i c d r hcons
        rw [hcons] at hrest
        split at h
        · cases h
        rename_i hc
        have hdr : 0x2F ∈ d :: r := by
          refine (List.mem_cons.mp hrest).resolve_left fun hslash => ?_
          rw [← hslash] at hc
          exact hc (by decide)
        split at h
        · rename_i hd
          have hr : 0x2F ∈ r := by
            refine (List.mem_cons.mp hdr).resolve_left fun hslash => ?_
            rw [← hslash] at hd
            exact absurd hd (by decide)
          split at h
          · cases h
          split at h
          · rename_i hnil
            rw [hnil] at hr
            cases hr
          · exact ih h hr
        · exact ih h hdr

private theorem slash_not_mem_of_bytes {s : GoString} {b : Bytes 16}
    (h : parseIPv6Bytes s = some b) : 0x2F ∉ s := by
  intro hs
  rw [parseIPv6Bytes] at h
  have hstart : 0x2F ∈ (if hasPrefix s (str "::") then (s.drop 2, some 0) else (s, none)).1 := by
    split
    · rename_i hpre
      obtain ⟨t, rfl⟩ := exists_append_of_hasPrefix hpre
      exact (List.mem_append.mp hs).resolve_left (by decide)
    · exact hs
  generalize (if hasPrefix s (str "::") then (s.drop 2, some 0) else (s, none)) = start
    at h hstart
  split at h
  · rename_i hnil
    rw [hnil.2] at hstart
    cases hstart
  · split at h
    · rename_i hgroups
      cases slash_mem_of_groups hgroups hstart
    · cases h

/-- **An address without a zone** has no slash. -/
theorem slash_not_mem_of_parseAddr {s : GoString} {a : Addr} (h : parseAddr s = some a)
    (hzone : a.zone = []) : 0x2F ∉ s := by
  rw [parseAddr] at h
  split at h
  · obtain ⟨b, hb, -⟩ := Option.map_eq_some_iff.mp h
    obtain ⟨fields, hfields, -⟩ := Option.bind_eq_some_iff.mp hb
    exact slash_not_mem_of_fields hfields
  · split at h
    · rename_i s' hcut
      obtain ⟨b, hb, -⟩ := Option.map_eq_some_iff.mp h
      by_cases hmem : 0x25 ∈ s
      · obtain ⟨_, _, -, -, hsome⟩ := exists_cut_of_mem hmem
        rw [hsome] at hcut
        cases hcut
      · rw [cut_of_not_mem hmem] at hcut
        obtain rfl : s = s' := congrArg Prod.fst hcut
        exact slash_not_mem_of_bytes hb
    · split at h
      · cases h
      · rename_i hne
        obtain ⟨b, -, rfl⟩ := Option.map_eq_some_iff.mp h
        exact absurd hzone hne
  · cases h

/-- An address is no network. -/
theorem parseCIDR_eq_none {s : GoString} {a : Addr} (h : parseAddr s = some a)
    (hzone : a.zone = []) : parseCIDR s = none := by
  rw [parseCIDR, cut_of_not_mem (slash_not_mem_of_parseAddr h hzone)]

/-- **A network of an address**: the text of an address, with a length. -/
theorem parseCIDR_append {s m : GoString} {a : Addr} {n : ℕ} (h : parseAddr s = some a)
    (hzone : a.zone = []) (hn : dtoi m = some n) (hle : n ≤ a.bitLen) :
    parseCIDR (s ++ 0x2F :: m) = some ⟨maskIP a.as16 n a.bitLen, n, a.bitLen⟩ := by
  rw [parseCIDR, cut_append_cons (slash_not_mem_of_parseAddr h hzone)]
  dsimp only
  rw [h, hn]
  exact if_neg (not_or.mpr ⟨not_not.mpr hzone, not_lt.mpr hle⟩)

/-- `To4` finds the four bytes of an IPv4 address. -/
theorem to4_as16 (b : Bytes 4) : to4 (Addr.v4 b).as16.1 = some b.1 := by
  have hlen := (Addr.v4 b).as16.2
  rw [to4, if_neg (by omega), if_pos ⟨hlen, List.take_left' rfl⟩]
  exact congrArg some (List.drop_left' rfl)

theorem length_of_to4 {ip ip4 : List UInt8} (h : to4 ip = some ip4) : ip4.length = 4 := by
  rw [to4] at h
  split at h
  · rename_i hlen
    exact Option.some.inj h ▸ hlen
  split at h
  · rename_i hlong
    rw [← Option.some.inj h, List.length_drop, hlong.1]
  · cases h

private theorem zipWith_cidrMask_full (l : List UInt8) :
    List.zipWith (· &&& ·) l (cidrMask l.length (8 * l.length)) = l := by
  induction l with
  | nil => rfl
  | cons b l ih =>
    have hsub : 8 * (l.length + 1) - 8 = 8 * l.length := by omega
    have hand : b &&& 0xFF = b := UInt8.and_neg_one
    rw [List.length_cons, cidrMask, if_pos (by omega), List.zipWith_cons_cons, hsub, ih, hand]

/-- The whole mask leaves an address as it is. -/
theorem maskIP_full (a : Addr) : maskIP a.as16 a.bitLen a.bitLen =
    match a with
    | .v4 b => b.1
    | .v6 b _ => b.1 := by
  cases a with
  | v4 b =>
    have hdrop : (Addr.v4 b).as16.1.drop 12 = b.1 := List.drop_left' rfl
    have hfull := zipWith_cidrMask_full b.1
    rw [b.2] at hfull
    dsimp only [Addr.bitLen]
    rw [maskIP, if_pos ⟨rfl, List.take_left' rfl⟩, hdrop]
    exact hfull
  | v6 b zone =>
    have hfull := zipWith_cidrMask_full b.1
    rw [b.2] at hfull
    dsimp only [Addr.bitLen]
    rw [maskIP, if_neg (by omega)]
    exact hfull

end VibesWaf
