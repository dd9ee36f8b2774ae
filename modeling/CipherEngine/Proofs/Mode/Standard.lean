import Mathlib.Tactic.Ring
import CipherEngine.Mode.Standard
import CipherEngine.Proofs.Mode.Split

/-!
# The modes meet their standard definitions

A freshly built mode enciphers a message exactly as its standard definition does
(`KeyedMode.overBlock_encrypt_standard`), for every keyed block cipher, every vector of one
block and every message (whole blocks for ECB and CBC).  The definitions chain a value from
block to block (`Standard.chain`); the modes keep registers, positions and counters and work
byte by byte, so that a call may stop in the middle of a block.  Two simulation lemmas join
the two views:

* `Transducer.run_simulates`: a machine whose every step writes what the scheme writes, and
  moves to a state that stands for the scheme's next value, writes the scheme's output;
* `Transducer.run_chunks`: the same one block at a time, for a machine that writes each
  block (the last one possibly short) as the scheme does and, after a whole block, stands at
  the next block's start.

Inside a block the keystream modes mask with the rest of one keystream block
(`Transducer.run_inside`).  The counter of CTR is a big-endian number: adding one with a
carry from the last byte is adding one modulo `2^(8·n)` (`Mode.Ctr.increment_eq`,
`Mode.Ctr.increment_adds_one_mod`), so the counter after `j` blocks is counter block `j`
(`Standard.increment_counterBlock`).
-/

set_option autoImplicit false

namespace CipherEngine

/-! ## 1. Big-endian numbers -/

namespace Bytes

/-- The fold behind `toNatBE`, from any number already read. -/
theorem foldl_toNatBE (b : Bytes) (a : Nat) :
    b.foldl (fun n x => 256 * n + x.toNat) a = a * 256 ^ b.length + toNatBE b := by
  induction b generalizing a with
  | nil => simp [toNatBE]
  | cons x xs ih =>
    simp only [toNatBE, List.foldl_cons] at ih ⊢
    rw [ih, ih (256 * 0 + x.toNat), List.length_cons, Nat.pow_succ]
    ring

theorem toNatBE_cons (x : UInt8) (b : Bytes) :
    toNatBE (x :: b) = x.toNat * 256 ^ b.length + toNatBE b := by
  rw [toNatBE, List.foldl_cons, foldl_toNatBE]
  simp

theorem toNatBE_append_singleton (b : Bytes) (x : UInt8) :
    toNatBE (b ++ [x]) = 256 * toNatBE b + x.toNat := by
  simp [toNatBE, List.foldl_append]

theorem toNatBE_lt (b : Bytes) : toNatBE b < 256 ^ b.length := by
  induction b with
  | nil => simp [toNatBE]
  | cons x xs ih =>
    have hx : x.toNat < 256 := UInt8.toNat_lt x
    rw [toNatBE_cons, List.length_cons, Nat.pow_succ]
    calc x.toNat * 256 ^ xs.length + toNatBE xs
        < x.toNat * 256 ^ xs.length + 256 ^ xs.length := Nat.add_lt_add_left ih _
      _ = (x.toNat + 1) * 256 ^ xs.length := by ring
      _ ≤ 256 * 256 ^ xs.length := Nat.mul_le_mul_right _ hx
      _ = 256 ^ xs.length * 256 := Nat.mul_comm _ _

@[simp] theorem length_ofNatBE (n v : Nat) : (ofNatBE n v).length = n := by
  induction n with
  | zero => rfl
  | succ n ih => simp [ofNatBE, ih]

theorem toNatBE_ofNatBE (n v : Nat) : toNatBE (ofNatBE n v) = v % 256 ^ n := by
  induction n with
  | zero => simp [ofNatBE, toNatBE, Nat.mod_one]
  | succ n ih =>
    have hdigit : (v / 256 ^ n % 256).toUInt8.toNat = v / 256 ^ n % 256 := by
      rw [Nat.toUInt8_eq, UInt8.toNat_ofNat', Nat.mod_mod]
    rw [ofNatBE, toNatBE_cons, hdigit, length_ofNatBE, ih, Nat.mod_pow_succ]
    ring

/-- Only `v` modulo `256^n` is written. -/
theorem ofNatBE_mod (n v : Nat) : ofNatBE n (v % 256 ^ n) = ofNatBE n v := by
  induction n generalizing v with
  | zero => rfl
  | succ n ih =>
    have hdigit : v % 256 ^ (n + 1) / 256 ^ n % 256 = v / 256 ^ n % 256 := by
      rw [Nat.pow_succ, Nat.mod_mul_right_div_self, Nat.mod_mod]
    have hrest : v % 256 ^ (n + 1) % 256 ^ n = v % 256 ^ n :=
      Nat.mod_mod_of_dvd v (Nat.pow_dvd_pow 256 (Nat.le_succ n))
    rw [ofNatBE, ofNatBE, hdigit, ← ih (v % 256 ^ (n + 1)), hrest, ih]

/-- Bytes read as a number and written back are the same bytes. -/
theorem ofNatBE_toNatBE (b : Bytes) : ofNatBE b.length (toNatBE b) = b := by
  induction b with
  | nil => rfl
  | cons x xs ih =>
    have hx : x.toNat < 256 := UInt8.toNat_lt x
    have hlt := toNatBE_lt xs
    have hpos : 0 < 256 ^ xs.length := Nat.zero_lt_of_lt hlt
    have hdigit : (x.toNat * 256 ^ xs.length + toNatBE xs) / 256 ^ xs.length = x.toNat := by
      rw [Nat.add_comm, Nat.add_mul_div_right _ _ hpos, Nat.div_eq_of_lt hlt, Nat.zero_add]
    have hrest : (x.toNat * 256 ^ xs.length + toNatBE xs) % 256 ^ xs.length = toNatBE xs := by
      rw [Nat.add_comm, Nat.add_mul_mod_self_right, Nat.mod_eq_of_lt hlt]
    rw [toNatBE_cons, List.length_cons, ofNatBE, hdigit, Nat.mod_eq_of_lt hx, ← ofNatBE_mod,
      hrest, ih]
    simp

/-- Written from the end: the last byte is the lowest digit. -/
theorem ofNatBE_succ (n v : Nat) :
    ofNatBE (n + 1) v = ofNatBE n (v / 256) ++ [(v % 256).toUInt8] := by
  induction n generalizing v with
  | zero => simp [ofNatBE]
  | succ n ih =>
    have hdiv : v / 256 ^ (n + 1) = v / 256 / 256 ^ n := by
      rw [Nat.div_div_eq_div_mul, Nat.pow_succ', Nat.mul_comm]
    rw [ofNatBE, ih, ofNatBE, hdiv]
    rfl

/-- Exclusive or of a joined string: the second part meets the key past the first. -/
theorem xor_append (a b k : Bytes) : xor (a ++ b) k = xor a k ++ xor b (k.drop a.length) := by
  induction a generalizing k with
  | nil => rfl
  | cons x xs ih =>
    cases k with
    | nil => cases b <;> rfl
    | cons y ys => simp [xor, ih]

end Bytes

/-! ## 2. The counter

`Mode.Ctr.increment` adds one to the last byte and carries towards the first; read as a
big-endian number, that is adding one modulo `256^n`. -/

namespace Mode.Ctr

/-- Adding one to the first byte of a little-endian string, carrying while a byte wraps, adds
one to the number its reverse spells. -/
theorem reverse_incrementLow (l : Bytes) :
    (incrementLow l).reverse = Bytes.ofNatBE l.length (Bytes.toNatBE l.reverse + 1) := by
  induction l with
  | nil => rfl
  | cons b bs ih =>
    have hb := UInt8.toNat_lt b
    have hbyte : (b + 1).toNat = (b.toNat + 1) % 256 := by
      rw [UInt8.toNat_add, UInt8.toNat_one]
    rw [List.reverse_cons, Bytes.toNatBE_append_singleton, List.length_cons, Bytes.ofNatBE_succ]
    by_cases hwrap : b + 1 = 0
    · have h255 : b.toNat = 255 := by
        rw [hwrap, UInt8.toNat_zero] at hbyte
        omega
      have hdiv : (256 * Bytes.toNatBE bs.reverse + b.toNat + 1) / 256 =
          Bytes.toNatBE bs.reverse + 1 := by omega
      have hmod : (256 * Bytes.toNatBE bs.reverse + b.toNat + 1) % 256 = 0 := by omega
      rw [incrementLow, if_pos hwrap, List.reverse_cons, ih, hdiv, hmod]
      rfl
    · have hlt : b.toNat + 1 < 256 := by
        refine Nat.lt_of_not_le fun hge => hwrap (UInt8.toNat_inj.mp ?_)
        rw [hbyte, UInt8.toNat_zero]
        omega
      have hdiv : (256 * Bytes.toNatBE bs.reverse + b.toNat + 1) / 256 =
          Bytes.toNatBE bs.reverse := by omega
      have hmod : (256 * Bytes.toNatBE bs.reverse + b.toNat + 1) % 256 = b.toNat + 1 := by
        omega
      have hdigit : (b.toNat + 1).toUInt8 = b + 1 := by
        apply UInt8.toNat_inj.mp
        rw [Nat.toUInt8_eq, UInt8.toNat_ofNat', hbyte]
      have hrest := Bytes.ofNatBE_toNatBE bs.reverse
      rw [List.length_reverse] at hrest
      rw [incrementLow, if_neg hwrap, List.reverse_cons, hdiv, hmod, hrest, hdigit]

/-- **Stepping the counter adds one to it**, as a big-endian number modulo `256^n`. -/
theorem increment_eq (c : Bytes) :
    increment c = Bytes.ofNatBE c.length (Bytes.toNatBE c + 1) := by
  rw [increment, reverse_incrementLow, List.length_reverse, List.reverse_reverse]

@[simp] theorem length_increment (c : Bytes) : (increment c).length = c.length := by
  rw [increment_eq, Bytes.length_ofNatBE]

theorem toNatBE_increment (c : Bytes) :
    Bytes.toNatBE (increment c) = (Bytes.toNatBE c + 1) % 2 ^ (8 * c.length) := by
  rw [increment_eq, Bytes.toNatBE_ofNatBE, Nat.pow_mul]

/-- Bytes that wrap pass the carry on, and become zeros. -/
theorem incrementLow_replicate_append (k : Nat) (l : Bytes) :
    incrementLow (List.replicate k 0xff ++ l) = List.replicate k 0 ++ incrementLow l := by
  induction k with
  | zero => rfl
  | succ k ih =>
    rw [List.replicate_succ, List.cons_append, incrementLow, if_pos (by decide), ih]
    rfl

/-- The carry stops at the last byte that does not wrap: that byte goes up by one, the bytes
after it become zeros, and the bytes before it stay. -/
theorem increment_of_ne_ff (p : Bytes) {b : UInt8} (hb : b ≠ 0xff) (k : Nat) :
    increment (p ++ b :: List.replicate k 0xff) = p ++ (b + 1) :: List.replicate k 0 := by
  have hstop : b + 1 ≠ 0 := fun h => hb (by grind)
  simp only [increment, List.reverse_append, List.reverse_cons, List.reverse_replicate,
    List.append_assoc, List.singleton_append]
  rw [incrementLow_replicate_append, incrementLow, if_neg hstop]
  simp

/-- A counter of 0xff bytes wraps around to zeros. -/
theorem increment_replicate_ff (n : Nat) :
    increment (List.replicate n 0xff) = List.replicate n 0 := by
  have hlow : incrementLow (List.replicate n 0xff) = List.replicate n 0 := by
    simpa [incrementLow] using incrementLow_replicate_append n []
  rw [increment, List.reverse_replicate, hlow, List.reverse_replicate]

/-- **Stepping the counter adds one to it, wrapping.**  The counter keeps its length and, read
as a big-endian number, goes up by one modulo `2^(8·n)`; the carry stops at the last byte that
does not wrap, and a counter of 0xff bytes becomes zeros. -/
theorem increment_adds_one_mod :
    (∀ c : Bytes, (increment c).length = c.length ∧
      Bytes.toNatBE (increment c) = (Bytes.toNatBE c + 1) % 2 ^ (8 * c.length)) ∧
    (∀ (p : Bytes) (b : UInt8) (k : Nat), b ≠ 0xff →
      increment (p ++ b :: List.replicate k 0xff) = p ++ (b + 1) :: List.replicate k 0) ∧
    (∀ n : Nat, increment (List.replicate n 0xff) = List.replicate n 0) :=
  ⟨fun c => ⟨length_increment c, toNatBE_increment c⟩,
    fun p _ k hb => increment_of_ne_ff p hb k, increment_replicate_ff⟩

/-- The carry out of a last byte 0xff stops at the byte before it. -/
theorem increment_adds_one_mod_carry :
    (0x00 : UInt8) ≠ 0xff ∧ increment [0x00, 0xff] = [0x01, 0x00] :=
  ⟨by decide, increment_adds_one_mod.2.1 [] 0x00 1 (by decide)⟩

end Mode.Ctr

namespace Standard

theorem counterBlock_eq (iv : Bytes) (j : Nat) :
    counterBlock iv j = Bytes.ofNatBE iv.length (Bytes.toNatBE iv + j) := by
  have hpow : 2 ^ (8 * iv.length) = 256 ^ iv.length := by rw [Nat.pow_mul]
  rw [counterBlock, hpow, Bytes.ofNatBE_mod]

@[simp] theorem length_counterBlock (iv : Bytes) (j : Nat) :
    (counterBlock iv j).length = iv.length :=
  Bytes.length_ofNatBE _ _

theorem counterBlock_zero (iv : Bytes) : counterBlock iv 0 = iv := by
  rw [counterBlock_eq, Nat.add_zero, Bytes.ofNatBE_toNatBE]

/-- **The counter after block `j` is counter block `j + 1`**, wrapping at `2^(8·n)`. -/
theorem increment_counterBlock (iv : Bytes) (j : Nat) :
    Mode.Ctr.increment (counterBlock iv j) = counterBlock iv (j + 1) := by
  rw [Mode.Ctr.increment_eq, length_counterBlock, counterBlock_eq, Bytes.toNatBE_ofNatBE,
    ← Bytes.ofNatBE_mod, Nat.mod_add_mod, Bytes.ofNatBE_mod, counterBlock_eq, Nat.add_assoc]

example : counterBlock [0x00, 0xff] 1 = [0x01, 0x00] ∧ counterBlock [0xff, 0xff] 1 = [0, 0] := by
  decide

end Standard

/-! ## 3. Simulation

A machine simulates a chaining scheme when each step writes what the scheme writes and leads
to a state that stands for the scheme's next value.  The byte modes do so byte by byte; the
block modes do so one block at a time, each block's bytes masked with one keystream block. -/

namespace Transducer

/-- **A machine that steps as a chaining scheme writes the scheme's output.**  `R v s` says that
state `s` stands for the scheme's value `v`. -/
theorem run_simulates {σ ν α β : Type} {step : σ → α → β × σ} (R : ν → σ → Prop)
    {out : ν → α → β} {next : ν → α → ν}
    (hstep : ∀ v s x, R v s → (step s x).1 = out v x ∧ R (next v x) (step s x).2) :
    ∀ (xs : List α) (v : ν) (s : σ), R v s → (run step s xs).1 = Standard.chain out next v xs
  | [], _, _, _ => rfl
  | x :: xs, v, s, hs => by
    obtain ⟨hy, hs'⟩ := hstep v s x hs
    rw [run_cons, Standard.chain, hy, run_simulates R hstep xs _ _ hs']

/-- **Block by block.**  A byte machine that writes every block from a block boundary as the
scheme writes it (the last block may be short), and after a whole block stands at the next
boundary, writes the scheme's output. -/
theorem run_chunks {σ ν : Type} {step : σ → UInt8 → UInt8 × σ} {bs : Nat} (hbs : 0 < bs)
    (Boundary : ν → σ → Prop) {out : ν → Bytes → Bytes} {next : ν → Bytes → ν}
    (hblock : ∀ v s p, Boundary v s → 0 < p.length → p.length ≤ bs →
      (run step s p).1 = out v p ∧ (p.length = bs → Boundary (next v p) (run step s p).2)) :
    ∀ (P : Bytes) (v : ν) (s : σ), Boundary v s →
      (run step s P).1 = (Standard.chain out next v (Bytes.chunks bs P)).flatten := by
  intro P
  induction P using Bytes.chunks.induct bs with
  | case1 _ h => omega
  | case2 => intro v s _; rw [Bytes.chunks_nil hbs]; rfl
  | case3 _ x xs ih =>
    intro v s hs
    obtain ⟨hout, hnext⟩ := hblock v s ((x :: xs).take bs) hs (by simp; omega) (by simp)
    rw [Bytes.chunks_of_length_pos hbs (by simp), Standard.chain, List.flatten_cons]
    conv_lhs => rw [← List.take_append_drop bs (x :: xs)]
    rw [run_append]
    dsimp only
    rw [hout]
    congr 1
    by_cases hfull : ((x :: xs).take bs).length = bs
    · exact ih _ _ (hnext hfull)
    · have hrest : (x :: xs).drop bs = [] := by
        rw [List.drop_eq_nil_iff]; simp at hfull ⊢; omega
      rw [hrest, Bytes.chunks_nil hbs]
      rfl

/-- **Inside a block.**  A machine that masks the byte at each position past the first with
the keystream byte there masks the rest of the block with the rest of the keystream block
`K`.  `M done s` says where the block stands once `done` has been read. -/
theorem run_inside {σ : Type} {step : σ → UInt8 → UInt8 × σ} (K : Bytes)
    (M : Bytes → σ → Prop)
    (hstep : ∀ done s x, M done s → 0 < done.length → done.length < K.length →
      (step s x).1 = x ^^^ K.getD done.length 0 ∧ M (done ++ [x]) (step s x).2) :
    ∀ (p done : Bytes) (s : σ), M done s → 0 < done.length →
      done.length + p.length ≤ K.length →
      (run step s p).1 = Bytes.xor p (K.drop done.length) ∧ M (done ++ p) (run step s p).2
  | [], done, s, hs, _, _ => ⟨rfl, by rw [List.append_nil]; exact hs⟩
  | x :: xs, done, s, hs, hpos, hlen => by
    have hlt : done.length < K.length := by simp at hlen; omega
    obtain ⟨hy, hs'⟩ := hstep done s x hs hpos hlt
    obtain ⟨hrest, hend⟩ :=
      run_inside K M hstep xs (done ++ [x]) _ hs' (by simp) (by simp at hlen ⊢; omega)
    rw [List.append_assoc, List.singleton_append] at hend
    rw [List.length_append, List.length_singleton] at hrest
    rw [run_cons, hy, hrest, List.drop_eq_getElem_cons hlt]
    exact ⟨by simp [Bytes.xor, List.getD_eq_getElem?_getD, hlt], hend⟩

/-- **A keystream machine writes the scheme that masks each block with its keystream block.**
At a boundary standing for `v`, the first step fetches the keystream block `key v` and masks
with its first byte; the steps after it mask with the rest (`run_inside`), and a whole block
leaves the machine at the boundary for `next v p`. -/
theorem run_keystream {σ ν : Type} {step : σ → UInt8 → UInt8 × σ} {bs : Nat} (hbs : 0 < bs)
    (Boundary : ν → σ → Prop) (key : ν → Bytes) (next : ν → Bytes → ν)
    (M : ν → Bytes → σ → Prop)
    (hkey : ∀ v s, Boundary v s → (key v).length = bs)
    (hfirst : ∀ v s x, Boundary v s →
      (step s x).1 = x ^^^ (key v).getD 0 0 ∧ M v [x] (step s x).2)
    (hstep : ∀ v done s x, M v done s → 0 < done.length → done.length < bs →
      (step s x).1 = x ^^^ (key v).getD done.length 0 ∧ M v (done ++ [x]) (step s x).2)
    (hend : ∀ v p s, M v p s → p.length = bs → Boundary (next v p) s) :
    ∀ (P : Bytes) (v : ν) (s : σ), Boundary v s →
      (run step s P).1 =
        (Standard.chain (fun v p => Bytes.xor p (key v)) next v (Bytes.chunks bs P)).flatten := by
  refine run_chunks hbs Boundary fun v s p hs hp hpbs => ?_
  have hK := hkey v s hs
  obtain ⟨x, xs, rfl⟩ := List.exists_cons_of_length_pos hp
  obtain ⟨k, ks, hks⟩ := List.exists_cons_of_length_pos (show 0 < (key v).length by omega)
  obtain ⟨hy, hs'⟩ := hfirst v s x hs
  obtain ⟨hrest, hM⟩ := run_inside (key v) (M v)
    (fun done s x h h0 hlt => hstep v done s x h h0 (hK ▸ hlt)) xs [x] _ hs' (by simp)
    (by simp at hpbs ⊢; omega)
  rw [List.singleton_append] at hM
  rw [run_cons]
  refine ⟨?_, fun hfull => hend v _ _ hM hfull⟩
  rw [hy, hrest, hks]
  rfl

end Transducer

/-! ## 4. Each mode against its definition

Over a keyed block cipher `c` and a vector of one block.  The eight-bit modes and CBC step as
their definitions chain; NCFB, NOFB and CTR are keystream machines whose boundary states are
the register holding the last ciphertext block, the register holding the last keystream block,
and the counter holding counter block `j`. -/

namespace Mode

/-- Shifting a byte into a register that is not empty drops its first byte. -/
theorem shiftIn_eq {r : Bytes} (hr : r ≠ []) (b : UInt8) : shiftIn r b = r.drop 1 ++ [b] := by
  cases r with
  | nil => contradiction
  | cons _ _ => rfl

/-- Writing the next ciphertext byte over the register: the register holds the ciphertext of
the block so far, then the rest of the previous ciphertext block. -/
theorem Ncfb.set_register {done prev K : Bytes} (x : UInt8) (hprev : done.length < prev.length)
    (hK : done.length < K.length) :
    (Bytes.xor done K ++ prev.drop done.length).set done.length (x ^^^ K.getD done.length 0) =
      Bytes.xor (done ++ [x]) K ++ prev.drop (done.length + 1) := by
  have hxor : (Bytes.xor done K).length = done.length := by simp; omega
  rw [List.set_append, if_neg (by omega), hxor, Nat.sub_self, List.drop_eq_getElem_cons hprev,
    List.set_cons_zero, Bytes.xor_append, List.drop_eq_getElem_cons hK, List.append_assoc]
  simp [Bytes.xor, List.getD_eq_getElem?_getD, hK]

variable (c : BlockCipher) {iv : Bytes} (hiv : iv.length = c.blockSize)
include hiv

omit hiv in
theorem Cbc.run_encryptStep (prev : Bytes) (blocks : List Bytes) :
    (Transducer.run (Cbc.encryptStep c.encrypt) prev blocks).1 =
      Standard.cbc c.encrypt prev blocks :=
  Transducer.run_simulates (fun v s => s = v) (fun _ _ _ hs => by subst hs; exact ⟨rfl, rfl⟩)
    blocks prev prev rfl

theorem iv_ne_nil : iv ≠ [] := by
  intro h
  have := c.blockSize_pos
  simp [h] at hiv
  omega

theorem Cfb.run_encryptStep (P : Bytes) :
    (Transducer.run (Cfb.encryptStep c.encrypt) iv P).1 = Standard.cfb8 c.encrypt iv P := by
  refine Transducer.run_simulates (fun r s => s = r ∧ r ≠ []) (fun r s x hs => ?_) P iv iv
    ⟨rfl, iv_ne_nil c hiv⟩
  obtain ⟨rfl, hr⟩ := hs
  exact ⟨rfl, shiftIn_eq hr _, by simp⟩

theorem Ofb.run_step (P : Bytes) :
    (Transducer.run (Ofb.step c.encrypt) iv P).1 = Standard.ofb8 c.encrypt iv P := by
  refine Transducer.run_simulates (fun r s => s = r ∧ r ≠ []) (fun r s x hs => ?_) P iv iv
    ⟨rfl, iv_ne_nil c hiv⟩
  obtain ⟨rfl, hr⟩ := hs
  exact ⟨rfl, shiftIn_eq hr _, by simp⟩

theorem Ncfb.run_encryptStep (P : Bytes) :
    (Transducer.run (Ncfb.encryptStep c.encrypt) (Ncfb.start iv) P).1 =
      (Standard.ncfb c.encrypt iv (Bytes.chunks c.blockSize P)).flatten := by
  -- at a boundary the register holds the last ciphertext block; inside a block the
  -- ciphertext written so far has replaced the register's first bytes
  refine Transducer.run_keystream c.blockSize_pos
    (fun prev (s : Ncfb) => s.register = prev ∧ s.pos = 0 ∧ prev.length = c.blockSize)
    c.encrypt (fun prev p => Bytes.xor p (c.encrypt prev))
    (fun prev done s => s = ⟨Bytes.xor done (c.encrypt prev) ++ prev.drop done.length,
      c.encrypt prev, done.length % c.blockSize⟩ ∧ prev.length = c.blockSize)
    (fun _ _ hs => c.length_encrypt hs.2.2) ?first ?inside ?boundary P iv _ ⟨rfl, rfl, hiv⟩
  case first =>
    rintro prev s x ⟨hr, hpos, hprev⟩
    have hK := c.length_encrypt hprev
    have hreg := @set_register [] prev (c.encrypt prev) x (by simp [hprev, c.blockSize_pos])
      (by simp [hK, c.blockSize_pos])
    refine ⟨by simp [encryptStep, refill, hpos, hr], ?_, hprev⟩
    simp only [encryptStep, refill, advance, hpos, if_true, hr, hprev]
    simpa [Bytes.xor] using hreg
  case inside =>
    rintro prev done s x ⟨rfl, hprev⟩ hpos hlt
    have hK := c.length_encrypt hprev
    have hd : done.length % c.blockSize = done.length := Nat.mod_eq_of_lt hlt
    have hlen : (Bytes.xor done (c.encrypt prev) ++ prev.drop done.length).length =
        c.blockSize := by simp [hK, hprev]; omega
    refine ⟨by simp [encryptStep, refill, hd, Nat.pos_iff_ne_zero.mp hpos], ?_, hprev⟩
    simp only [encryptStep, refill, advance, hd, Nat.pos_iff_ne_zero.mp hpos, if_false, hlen]
    rw [set_register x (by omega) (by omega), List.length_append, List.length_singleton]
  case boundary =>
    rintro prev p s ⟨rfl, hprev⟩ hp
    have hK := c.length_encrypt hprev
    simp [hp, hprev, hK]

theorem Nofb.run_step (P : Bytes) :
    (Transducer.run (Nofb.step c.encrypt) (Nofb.start iv) P).1 =
      (Standard.nofb c.encrypt iv (Bytes.chunks c.blockSize P)).flatten := by
  -- at a boundary the register holds the last keystream block
  refine Transducer.run_keystream c.blockSize_pos
    (fun o s => s = ⟨o, 0⟩ ∧ o.length = c.blockSize) c.encrypt (fun o _ => c.encrypt o)
    (fun o done s => s = ⟨c.encrypt o, done.length % c.blockSize⟩ ∧ o.length = c.blockSize)
    (fun _ _ hs => c.length_encrypt hs.2) ?first ?inside ?boundary P iv _ ⟨rfl, hiv⟩
  case first =>
    rintro o s x ⟨rfl, ho⟩
    simp [step, ho]
  case inside =>
    rintro o done s x ⟨rfl, ho⟩ hpos hlt
    have hd : done.length % c.blockSize = done.length := Nat.mod_eq_of_lt hlt
    simp [step, hd, c.length_encrypt ho, Nat.pos_iff_ne_zero.mp hpos, ho]
  case boundary =>
    rintro o p s ⟨rfl, ho⟩ hp
    simp [hp, c.length_encrypt ho]

theorem Ctr.run_step (P : Bytes) :
    (Transducer.run (Ctr.step c.encrypt) (Ctr.start iv) P).1 =
      (Standard.ctr c.encrypt iv (Bytes.chunks c.blockSize P)).flatten := by
  have hK : ∀ j, (c.encrypt (Standard.counterBlock iv j)).length = c.blockSize :=
    fun j => c.length_encrypt (by rw [Standard.length_counterBlock, hiv])
  -- at the boundary before block `j` the counter is counter block `j`; inside the block it
  -- has already moved on to counter block `j + 1`
  refine Transducer.run_keystream c.blockSize_pos
    (fun j (s : Ctr) => s.counter = Standard.counterBlock iv j ∧ s.pos = 0)
    (fun j => c.encrypt (Standard.counterBlock iv j)) (fun j _ => j + 1)
    (fun j done s => s = ⟨Standard.counterBlock iv (j + 1),
      c.encrypt (Standard.counterBlock iv j), done.length % c.blockSize⟩)
    (fun j _ _ => hK j) ?first ?inside ?boundary P 0 _
    ⟨(Standard.counterBlock_zero iv).symm, rfl⟩
  case first =>
    rintro j ⟨counter, ks, pos⟩ x ⟨hc, hpos⟩
    simp only at hc hpos
    subst hc hpos
    simp [step, Standard.increment_counterBlock, hK]
  case inside =>
    rintro j done s x rfl hpos hlt
    have hd : done.length % c.blockSize = done.length := Nat.mod_eq_of_lt hlt
    simp [step, hd, hK, Nat.pos_iff_ne_zero.mp hpos]
  case boundary =>
    rintro j p s rfl hp
    simp [hp]

end Mode

/-! ## 5. A built mode enciphers as its standard -/

namespace KeyedMode

/-- The mode that `built` gives turns the message `P` into `C`. -/
def Enciphers (built : Except PrimitiveError KeyedMode) (P C : Bytes) : Prop :=
  ∃ m m', built = .ok m ∧ m.encrypt P = .ok (C, m')

theorem enciphers_of {built : Except PrimitiveError KeyedMode} {m m' : KeyedMode} {P C : Bytes}
    (hb : built = .ok m) (he : m.encrypt P = .ok (C, m')) : Enciphers built P C :=
  ⟨m, m', hb, he⟩

/-- **Every mode meets its standard definition.**  Built over a keyed block cipher `c` with a
vector of one block, each mode enciphers a message as its standard writes it: ECB and CBC on
whole blocks, the eight-bit modes byte by byte, and NCFB, NOFB and CTR block by block with a
last short block masked by the first bytes of its keystream block. -/
theorem overBlock_encrypt_standard (c : BlockCipher) (iv P : Bytes)
    (hiv : iv.length = c.blockSize) :
    (P.length % c.blockSize = 0 →
      Enciphers (ModeUnit.overBlock .ecb c iv) P
        (Standard.ecb c.encrypt (Bytes.chunks c.blockSize P)).flatten ∧
      Enciphers (ModeUnit.overBlock .cbc c iv) P
        (Standard.cbc c.encrypt iv (Bytes.chunks c.blockSize P)).flatten) ∧
    Enciphers (ModeUnit.overBlock .cfb c iv) P (Standard.cfb8 c.encrypt iv P) ∧
    Enciphers (ModeUnit.overBlock .ofb c iv) P (Standard.ofb8 c.encrypt iv P) ∧
    Enciphers (ModeUnit.overBlock .ncfb c iv) P
      (Standard.ncfb c.encrypt iv (Bytes.chunks c.blockSize P)).flatten ∧
    Enciphers (ModeUnit.overBlock .nofb c iv) P
      (Standard.nofb c.encrypt iv (Bytes.chunks c.blockSize P)).flatten ∧
    Enciphers (ModeUnit.overBlock .ctr c iv) P
      (Standard.ctr c.encrypt iv (Bytes.chunks c.blockSize P)).flatten := by
  have hbuilt : ∀ k, k ≠ .ecb → k ≠ .stream →
      ModeUnit.overBlock k c iv = .ok (match k with
        | .cbc => .cbc c iv | .cfb => .cfb c iv | .ofb => .ofb c iv
        | .ncfb => .ncfb c (Mode.Ncfb.start iv) | .nofb => .nofb c (Mode.Nofb.start iv)
        | _ => .ctr c (Mode.Ctr.start iv)) := by
    intro k he hs
    cases k <;> simp_all [ModeUnit.overBlock, Check.length]
  refine ⟨fun hP => ⟨enciphers_of rfl (ecb_encrypt hP), ?_⟩, ?_, ?_, ?_, ?_, ?_⟩
  · exact enciphers_of (hbuilt .cbc (by decide) (by decide))
      (by rw [cbc_encrypt hP, Mode.Cbc.run_encryptStep])
  · exact enciphers_of (hbuilt .cfb (by decide) (by decide))
      (by rw [← Mode.Cfb.run_encryptStep c hiv]; rfl)
  · exact enciphers_of (hbuilt .ofb (by decide) (by decide))
      (by rw [← Mode.Ofb.run_step c hiv]; rfl)
  · exact enciphers_of (hbuilt .ncfb (by decide) (by decide))
      (by rw [← Mode.Ncfb.run_encryptStep c hiv]; rfl)
  · exact enciphers_of (hbuilt .nofb (by decide) (by decide))
      (by rw [← Mode.Nofb.run_step c hiv]; rfl)
  · exact enciphers_of (hbuilt .ctr (by decide) (by decide))
      (by rw [← Mode.Ctr.run_step c hiv]; rfl)

/-- IDEA under the all-zero key over the all-zero vector: CBC on two blocks, and CTR on a block
and one byte more. -/
theorem overBlock_encrypt_standard_idea :
    (Bytes.zeros 8).length = (BlockCipher.idea ⟨Idea.expandKey (Bytes.zeros 16),
      Idea.invertKey (Idea.expandKey (Bytes.zeros 16))⟩).blockSize ∧
    ((Bytes.zeros 16).length % 8 = 0 ∧
      Enciphers (ModeUnit.overBlock .cbc (.idea ⟨Idea.expandKey (Bytes.zeros 16),
          Idea.invertKey (Idea.expandKey (Bytes.zeros 16))⟩) (Bytes.zeros 8)) (Bytes.zeros 16)
        (Standard.cbc (BlockCipher.idea ⟨Idea.expandKey (Bytes.zeros 16),
          Idea.invertKey (Idea.expandKey (Bytes.zeros 16))⟩).encrypt (Bytes.zeros 8)
          (Bytes.chunks 8 (Bytes.zeros 16))).flatten) ∧
    Enciphers (ModeUnit.overBlock .ctr (.idea ⟨Idea.expandKey (Bytes.zeros 16),
        Idea.invertKey (Idea.expandKey (Bytes.zeros 16))⟩) (Bytes.zeros 8)) (Bytes.zeros 9)
      (Standard.ctr (BlockCipher.idea ⟨Idea.expandKey (Bytes.zeros 16),
        Idea.invertKey (Idea.expandKey (Bytes.zeros 16))⟩).encrypt (Bytes.zeros 8)
        (Bytes.chunks 8 (Bytes.zeros 9))).flatten :=
  ⟨rfl, ⟨rfl, ((overBlock_encrypt_standard _ (Bytes.zeros 8) (Bytes.zeros 16) rfl).1 rfl).2⟩,
    (overBlock_encrypt_standard _ (Bytes.zeros 8) (Bytes.zeros 9) rfl).2.2.2.2.2⟩

end KeyedMode

end CipherEngine
