import Mathlib.Algebra.Group.Nat.Defs
import CipherEngine.Bytes

/-!
# Modes of operation as their standards define them

Each mode is written here the way its standard writes it: over a block function `E` and the
message cut into blocks `P₁, P₂, …`, with nothing carried from one block to the next but the
value the definition chains (`Standard.chain`).  A last block shorter than the cipher's
block is masked with the first bytes of its keystream block only, as `Bytes.xor` is as long
as the shorter operand.

* ECB: `Cⱼ = E(Pⱼ)`.
* CBC: `Cⱼ = E(Pⱼ ⊕ Cⱼ₋₁)`, with `C₀` the initialisation vector.
* CFB with eight-bit feedback, byte by byte: `cᵢ = pᵢ ⊕ E(Rᵢ)[0]` and `Rᵢ₊₁ = Rᵢ[1..] ++ cᵢ`,
  from `R₀` the vector.
* OFB with eight-bit feedback: `kᵢ = E(Rᵢ)[0]`, `cᵢ = pᵢ ⊕ kᵢ` and `Rᵢ₊₁ = Rᵢ[1..] ++ kᵢ`.
* CFB with full-block feedback: `Cⱼ = Pⱼ ⊕ E(Cⱼ₋₁)`, with `C₀` the vector.
* OFB with full-block feedback: `Oⱼ = E(Oⱼ₋₁)` from `O₀` the vector, and `Cⱼ = Pⱼ ⊕ Oⱼ`.
* CTR: `Cⱼ = Pⱼ ⊕ E(Tⱼ)`, where `Tⱼ` is the vector plus `j` modulo `2^(8·n)` for a vector of
  `n` bytes, read and written most significant byte first (`Standard.counterBlock`).
-/

namespace CipherEngine

/-! ## 1. Numbers as big-endian bytes -/

namespace Bytes

/-- The number a byte string spells in base 256, first byte most significant. -/
def toNatBE (b : Bytes) : Nat := b.foldl (fun n x => 256 * n + x.toNat) 0

/-- `v` modulo `256^n` as `n` bytes, most significant first: the digit of weight `256^k`
comes `k` bytes before the end. -/
def ofNatBE : Nat → Nat → Bytes
  | 0, _ => []
  | n + 1, v => (v / 256 ^ n % 256).toUInt8 :: ofNatBE n v

end Bytes

/-! ## 2. The modes -/

namespace Standard

/-- A chaining scheme: from `v₀`, block `Pⱼ` is written as `out vⱼ Pⱼ`, and block `j` hands
`vⱼ₊₁ = next vⱼ Pⱼ` to the next. -/
def chain {ν α β : Type} (out : ν → α → β) (next : ν → α → ν) : ν → List α → List β
  | _, [] => []
  | v, p :: ps => out v p :: chain out next (next v p) ps

variable (E : Bytes → Bytes)

/-- ECB: `Cⱼ = E(Pⱼ)`. -/
def ecb (blocks : List Bytes) : List Bytes := blocks.map E

/-- CBC: `Cⱼ = E(Pⱼ ⊕ Cⱼ₋₁)`, with `C₀ = IV`. -/
def cbc (iv : Bytes) : List Bytes → List Bytes :=
  chain (fun prev p => E (Bytes.xor p prev)) (fun prev p => E (Bytes.xor p prev)) iv

/-- CFB with eight-bit feedback: `cᵢ = pᵢ ⊕ E(Rᵢ)[0]`, `Rᵢ₊₁ = Rᵢ[1..] ++ cᵢ`, `R₀ = IV`. -/
def cfb8 (iv : Bytes) : Bytes → Bytes :=
  chain (fun r p => p ^^^ (E r).headD 0) (fun r p => r.drop 1 ++ [p ^^^ (E r).headD 0]) iv

/-- OFB with eight-bit feedback: `kᵢ = E(Rᵢ)[0]`, `cᵢ = pᵢ ⊕ kᵢ`, `Rᵢ₊₁ = Rᵢ[1..] ++ kᵢ`,
`R₀ = IV`. -/
def ofb8 (iv : Bytes) : Bytes → Bytes :=
  chain (fun r p => p ^^^ (E r).headD 0) (fun r _ => r.drop 1 ++ [(E r).headD 0]) iv

/-- CFB with full-block feedback: `Cⱼ = Pⱼ ⊕ E(Cⱼ₋₁)`, with `C₀ = IV`. -/
def ncfb (iv : Bytes) : List Bytes → List Bytes :=
  chain (fun prev p => Bytes.xor p (E prev)) (fun prev p => Bytes.xor p (E prev)) iv

/-- OFB with full-block feedback: `Oⱼ = E(Oⱼ₋₁)` from `O₀ = IV`, and `Cⱼ = Pⱼ ⊕ Oⱼ`. -/
def nofb (iv : Bytes) : List Bytes → List Bytes :=
  chain (fun o p => Bytes.xor p (E o)) (fun o _ => E o) iv

/-- Counter block `j`: the vector plus `j`, modulo `2^(8·n)` for a vector of `n` bytes,
most significant byte first. -/
def counterBlock (iv : Bytes) (j : Nat) : Bytes :=
  Bytes.ofNatBE iv.length ((Bytes.toNatBE iv + j) % 2 ^ (8 * iv.length))

/-- CTR: `Cⱼ = Pⱼ ⊕ E(Tⱼ)`, with `Tⱼ` counter block `j` from `T₀ = IV`. -/
def ctr (iv : Bytes) : List Bytes → List Bytes :=
  chain (fun j p => Bytes.xor p (E (counterBlock iv j))) (fun j _ => j + 1) 0

end Standard

end CipherEngine
