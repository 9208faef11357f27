import VibeVpn.Go.Basic

/-!
# IPv4 headers

`internal/ippkt/ippkt.go`: the minimal IPv4 parser of the data plane, with its slices checked.
`Header.parse_ok` : it never panics, whatever the packet.
-/

namespace VibeVpn

/-- `ippkt.Header`. -/
structure Header where
  /-- The source address. -/
  src : Byte4
  /-- The destination address. -/
  dst : Byte4
  deriving DecidableEq, Repr

/-- `ippkt.Parse`; `none` stands for `ok = false`. -/
def Header.parse (pkt : Bytes) : Go (Option Header) :=
  if pkt.length < 20 then pure none
  else do
    let b ← index pkt 0
    if b >>> 4 ≠ 4 then pure none
    else
      let ihl := (b &&& 0x0f).toNat * 4
      if ihl < 20 ∨ pkt.length < ihl then pure none
      else do
        let len ← slice pkt 2 4
        let totalLen := beVal len
        if totalLen < ihl ∨ pkt.length < totalLen then pure none
        else do
          let src ← slice pkt 12 16
          let dst ← slice pkt 16 20
          pure (some { src := Byte4.copyOf src, dst := Byte4.copyOf dst })

/-- `isIPv4`. -/
def isIPv4 : Bytes → Bool
  | [] => false
  | b :: _ => b >>> 4 == 4

theorem Header.parse_ok (pkt : Bytes) : ∃ h, Header.parse pkt = .ok h := by
  unfold Header.parse
  by_cases hl : pkt.length < 20
  · exact ⟨none, if_pos hl⟩
  · rw [if_neg hl, index_ok (by omega), Go.ok_bind]
    dsimp only
    split_ifs
    · exact ⟨none, rfl⟩
    · exact ⟨none, rfl⟩
    · rw [slice_ok (by omega) (by omega), Go.ok_bind]
      split_ifs
      · exact ⟨none, rfl⟩
      · rw [slice_ok (by omega) (by omega), Go.ok_bind, slice_ok (by omega) (by omega), Go.ok_bind]
        exact ⟨_, rfl⟩

end VibeVpn
