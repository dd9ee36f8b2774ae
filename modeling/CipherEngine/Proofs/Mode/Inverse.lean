import CipherEngine.Proofs.Context.Reachable
import CipherEngine.Proofs.Cipher.Rijndael
import CipherEngine.Proofs.Cipher.Idea

/-!
# Deciphering undoes enciphering

A keyed mode deciphers what it enciphered, from the same state, and ends in the state that
enciphering reached (`KeyedMode.decrypt_of_encrypt`).  With the law that a message may be cut
between calls anywhere (`KeyedMode.transformAll_flatten`), two fresh copies of a built mode,
one enciphering and one deciphering, agree whatever pieces either side is handed
(`KeyedMode.transformAll_decrypt_encrypt`).

The byte modes never decipher a block, and their law holds for any block function.  OFB,
NOFB, CTR and the stream cipher mask each byte with a keystream byte that the data does not
touch (`Transducer.masking`).  CFB and NCFB feed the ciphertext byte back in both directions
(`Transducer.feedEncrypt`, `Transducer.feedDecrypt`): deciphering feeds back the byte it
read, not the byte it wrote.  ECB and CBC rest on the cipher deciphering what it enciphered
(`BlockCipher.Invertible`): Rijndael does under any schedule, IDEA under the inverted schedule
that keying derives.

Main statements:

* `Transducer.run_undo`, a decoder that undoes each step of an encoder undoes a whole run;
* `KeyedMode.decrypt_of_encrypt`, one call deciphered from the state it was enciphered from;
* `ModeUnit.build_invertible`, every mode a unit builds deciphers with an invertible cipher;
* `KeyedMode.transformAll_decrypt_encrypt`, the round trip through any two splittings.
-/

set_option autoImplicit false

namespace CipherEngine

/-! ## 1. Block ciphers that invert -/

namespace BlockCipher

/-- The cipher deciphers every block it enciphered. -/
def Invertible (c : BlockCipher) : Prop :=
  ∀ b : Bytes, b.length = c.blockSize → c.decrypt (c.encrypt b) = b

theorem invertible_rijndael (c : Rijndael) : (rijndael c).Invertible :=
  fun _ hb => c.decrypt_encrypt hb

/-- IDEA inverts under a decryption schedule derived from its encryption schedule. -/
theorem invertible_idea {c : Idea} (hc : c.decryptKey = Idea.invertKey c.encryptKey) :
    (idea c).Invertible := by
  intro b hb
  show Idea.crypt c.decryptKey (Idea.crypt c.encryptKey b) = b
  rw [hc]
  exact Idea.crypt_invertKey _ hb

end BlockCipher

/-- Keying IDEA derives the decryption schedule from the encryption schedule. -/
theorem Idea.decryptKey_new {key : Bytes} {c : Idea} (h : Idea.new key = .ok c) :
    c.decryptKey = Idea.invertKey c.encryptKey := by
  simp [Idea.new, Check.length] at h
  obtain ⟨-, rfl⟩ := h
  rfl

namespace KeyedMode

/-- The cipher deciphers what it enciphered, where the mode deciphers blocks at all: in ECB
and CBC.  The other modes use the cipher's forward direction only. -/
def Invertible : KeyedMode → Prop
  | .ecb c | .cbc c _ => c.Invertible
  | _ => True

end KeyedMode

theorem ModeUnit.overBlock_invertible {k : ModeKind} {c : BlockCipher} {iv : Bytes}
    {m : KeyedMode} (hc : c.Invertible) (h : ModeUnit.overBlock k c iv = .ok m) :
    m.Invertible := by
  cases k with
  | ecb =>
    simp only [overBlock, pure, Except.pure, Except.ok.injEq] at h
    subst h
    exact hc
  | cbc =>
    simp [overBlock, Check.length] at h
    obtain ⟨-, rfl⟩ := h
    exact hc
  | stream => simp [overBlock] at h
  | _ => simp [overBlock, Check.length] at h; obtain ⟨-, rfl⟩ := h; trivial

/-- **Every mode a unit builds deciphers with a cipher that inverts.** -/
theorem ModeUnit.build_invertible {mu : ModeUnit} {au : AlgorithmUnit} {key iv : Bytes}
    {m : KeyedMode} (h : mu.build au key iv = .ok m) : m.Invertible := by
  rcases build_eq_ok h with ⟨-, -, c, -, rfl⟩ | ⟨c, -, hc, hm⟩
  · trivial
  · refine overBlock_invertible ?_ hm
    rcases hc with ⟨i, hi, rfl⟩ | ⟨r, -, rfl⟩
    · exact BlockCipher.invertible_idea (Idea.decryptKey_new hi)
    · exact BlockCipher.invertible_rijndael r

/-! ## 2. Undoing a run -/

namespace Transducer

variable {σ α β : Type}

/-- **A decoder that undoes each step of an encoder undoes a whole run**, started from the
same state, and ends where the encoder ended.  The states on the way keep `S`; the inputs
satisfy `A`. -/
theorem run_undo {enc : σ → α → β × σ} {dec : σ → β → α × σ} (S : σ → Prop) (A : α → Prop)
    (hstep : ∀ s x, S s → A x → dec s (enc s x).1 = (x, (enc s x).2) ∧ S (enc s x).2) :
    ∀ (xs : List α) (s : σ), S s → (∀ x ∈ xs, A x) →
      run dec s (run enc s xs).1 = (xs, (run enc s xs).2)
  | [], _, _, _ => rfl
  | x :: xs, s, hs, hx => by
    obtain ⟨hdec, hs'⟩ := hstep s x hs (hx x (by simp))
    have ih := run_undo S A hstep xs (enc s x).2 hs' (fun y hy => hx y (by simp [hy]))
    rw [run_cons enc, run_cons dec, hdec]
    simp only [ih]

/-- A step that masks the byte with a keystream byte read off the state, and moves the state
on without looking at the byte. -/
def masking (key : σ → UInt8) (next : σ → σ) (s : σ) (x : UInt8) : UInt8 × σ :=
  (x ^^^ key s, next s)

/-- Ciphertext feedback, enciphering: the byte is masked, and the masked byte is fed back. -/
def feedEncrypt (key : σ → UInt8) (next : σ → UInt8 → σ) (s : σ) (x : UInt8) : UInt8 × σ :=
  (x ^^^ key s, next s (x ^^^ key s))

/-- Ciphertext feedback, deciphering: the byte read is fed back as it is, and unmasked. -/
def feedDecrypt (key : σ → UInt8) (next : σ → UInt8 → σ) (s : σ) (c : UInt8) : UInt8 × σ :=
  (c ^^^ key s, next s c)

section Bytes

variable (key : σ → UInt8)

/-- A byte machine whose deciphering step undoes its enciphering step, in every state. -/
theorem run_undo_bytes {enc dec : σ → UInt8 → UInt8 × σ}
    (hstep : ∀ s x, dec s (enc s x).1 = (x, (enc s x).2)) (s : σ) (d : Bytes) :
    run dec s (run enc s d).1 = (d, (run enc s d).2) :=
  run_undo (fun _ => True) (fun _ => True) (fun s x _ _ => ⟨hstep s x, trivial⟩) d s trivial
    (fun _ _ => trivial)

/-- The same keystream byte, masked in twice, cancels; the state moves the same way. -/
theorem masking_masking (next : σ → σ) (s : σ) (x : UInt8) :
    masking key next s (masking key next s x).1 = (x, (masking key next s x).2) := by
  simp only [masking, UInt8.xor_assoc, UInt8.xor_self, UInt8.xor_zero]

/-- Deciphering feeds back the byte that enciphering wrote, so both states move alike. -/
theorem feedDecrypt_feedEncrypt (next : σ → UInt8 → σ) (s : σ) (x : UInt8) :
    feedDecrypt key next s (feedEncrypt key next s x).1 = (x, (feedEncrypt key next s x).2) := by
  simp only [feedDecrypt, feedEncrypt, UInt8.xor_assoc, UInt8.xor_self, UInt8.xor_zero]

@[simp] theorem run_masking_masking (next : σ → σ) (s : σ) (d : Bytes) :
    run (masking key next) s (run (masking key next) s d).1 =
      (d, (run (masking key next) s d).2) :=
  run_undo_bytes (masking_masking key next) s d

@[simp] theorem run_feedDecrypt_feedEncrypt (next : σ → UInt8 → σ) (s : σ) (d : Bytes) :
    run (feedDecrypt key next) s (run (feedEncrypt key next) s d).1 =
      (d, (run (feedEncrypt key next) s d).2) :=
  run_undo_bytes (feedDecrypt_feedEncrypt key next) s d

end Bytes

end Transducer

/-! ## 3. The byte modes in those two shapes -/

namespace Mode

variable (E : Bytes → Bytes)

/-- CFB enciphers by feeding back the ciphertext byte. -/
theorem Cfb.encryptStep_eq : Cfb.encryptStep E = Transducer.feedEncrypt (firstByte E) shiftIn :=
  rfl

/-- CFB deciphers by feeding back the ciphertext byte it reads. -/
theorem Cfb.decryptStep_eq : Cfb.decryptStep E = Transducer.feedDecrypt (firstByte E) shiftIn :=
  rfl

/-- OFB feeds back its own keystream byte, so the data never reaches the register. -/
theorem Ofb.step_eq :
    Ofb.step E = Transducer.masking (firstByte E) (fun r => shiftIn r (firstByte E r)) :=
  rfl

/-- NCFB enciphers by writing the ciphertext byte into the register. -/
theorem Ncfb.encryptStep_eq :
    Ncfb.encryptStep E = Transducer.feedEncrypt
      (fun s => (Ncfb.refill E s).keystream.getD (Ncfb.refill E s).pos 0)
      (fun s => Ncfb.advance (Ncfb.refill E s)) :=
  rfl

/-- NCFB deciphers by writing the ciphertext byte it reads into the register. -/
theorem Ncfb.decryptStep_eq :
    Ncfb.decryptStep E = Transducer.feedDecrypt
      (fun s => (Ncfb.refill E s).keystream.getD (Ncfb.refill E s).pos 0)
      (fun s => Ncfb.advance (Ncfb.refill E s)) :=
  rfl

/-- NOFB enciphers its register in place, without the data. -/
theorem Nofb.step_eq :
    Nofb.step E = Transducer.masking
      (fun s => (if s.pos = 0 then E s.register else s.register).getD s.pos 0)
      (fun s => ⟨if s.pos = 0 then E s.register else s.register,
        (s.pos + 1) % s.register.length⟩) :=
  rfl

/-- CTR enciphers its counter, without the data. -/
theorem Ctr.step_eq :
    Ctr.step E = Transducer.masking
      (fun s => let t : Ctr := if s.pos = 0 then ⟨Ctr.increment s.counter, E s.counter, s.pos⟩
          else s
        t.keystream.getD t.pos 0)
      (fun s => let t : Ctr := if s.pos = 0 then ⟨Ctr.increment s.counter, E s.counter, s.pos⟩
          else s
        { t with pos := (t.pos + 1) % t.keystream.length }) :=
  rfl

end Mode

/-- Arcfour masks with its keystream, which the data does not touch. -/
theorem Arcfour.step_eq : Arcfour.step = Transducer.masking (fun c => c.next.1) (fun c => c.next.2) :=
  rfl

/-! ## 4. One call -/

namespace KeyedMode

section Undo

variable {c : BlockCipher} {d : Bytes}

/-- ECB writes whole blocks, so cutting its output gives them back. -/
theorem chunks_ecbOutput (hd : d.length % c.blockSize = 0) :
    Bytes.chunks c.blockSize ((Bytes.chunks c.blockSize d).map c.encrypt).flatten =
      (Bytes.chunks c.blockSize d).map c.encrypt := by
  apply Bytes.chunks_flatten c.blockSize_pos
  intro y hy
  obtain ⟨x, hx, rfl⟩ := List.mem_map.mp hy
  exact c.length_encrypt (Bytes.length_of_mem_chunks c.blockSize_pos hd x hx)

/-- A CBC step deciphered from the chain it was enciphered from gives the plaintext block
back and the same chain, which stays a whole block. -/
theorem cbcStep_undo (hc : c.Invertible) (prev x : Bytes) (hp : prev.length = c.blockSize)
    (hx : x.length = c.blockSize) :
    Mode.Cbc.decryptStep c.decrypt prev (Mode.Cbc.encryptStep c.encrypt prev x).1 =
        (x, (Mode.Cbc.encryptStep c.encrypt prev x).2) ∧
      (Mode.Cbc.encryptStep c.encrypt prev x).2.length = c.blockSize := by
  have hxor : (Bytes.xor x prev).length = c.blockSize := by simp [hp, hx]
  refine ⟨?_, (length_cbcEncryptStep prev x hp hx).2⟩
  simp only [Mode.Cbc.decryptStep, Mode.Cbc.encryptStep, hc _ hxor,
    Bytes.xor_xor_cancel x prev (by omega)]

/-- **Deciphering undoes enciphering, from the same state.**  A call that enciphers `d` into
`out` and moves the mode to `m'` is undone by deciphering `out` from where it started, and
that call moves the mode to `m'` too. -/
theorem decrypt_of_encrypt {m m' : KeyedMode} (hinv : m.Invertible) (hw : m.WellFormed)
    {out : Bytes} (h : m.transform .encrypt d = .ok (out, m')) :
    m.transform .decrypt out = .ok (d, m') := by
  have hfit := fits_of_transform h
  cases m with
  | ecb c =>
    have hd : d.length % c.blockSize = 0 := hfit rfl
    rw [transform, ecb_encrypt hd] at h
    cases h
    have hout : ((Bytes.chunks c.blockSize d).map c.encrypt).flatten.length % c.blockSize = 0 := by
      rw [length_ecb (fun _ hx => c.length_encrypt hx) hd]
      exact hd
    have hblocks := Bytes.length_of_mem_chunks c.blockSize_pos hd
    have hback : (Bytes.chunks c.blockSize d).map (c.decrypt ∘ c.encrypt) =
        Bytes.chunks c.blockSize d :=
      (List.map_congr_left fun x hx => hinv x (hblocks x hx)).trans (List.map_id _)
    rw [transform, ecb_decrypt hout, chunks_ecbOutput hd, List.map_map, hback,
      Bytes.flatten_chunks]
  | cbc c prev =>
    have hd : d.length % c.blockSize = 0 := hfit rfl
    rw [transform, cbc_encrypt hd] at h
    cases h
    have hblocks := Bytes.length_of_mem_chunks c.blockSize_pos hd
    obtain ⟨houtBlocks, -⟩ := Transducer.run_invariant (fun p : Bytes => p.length = c.blockSize)
      (fun x : Bytes => x.length = c.blockSize) (fun y : Bytes => y.length = c.blockSize)
      length_cbcEncryptStep _ prev hw hblocks
    have hout : (Transducer.run (Mode.Cbc.encryptStep c.encrypt) prev
        (Bytes.chunks c.blockSize d)).1.flatten.length % c.blockSize = 0 := by
      rw [Bytes.length_flatten_of_blocks _ houtBlocks]
      exact Nat.mul_mod_right _ _
    rw [transform, cbc_decrypt hout, Bytes.chunks_flatten c.blockSize_pos _ houtBlocks,
      Transducer.run_undo (fun p : Bytes => p.length = c.blockSize)
        (fun x : Bytes => x.length = c.blockSize) (cbcStep_undo hinv) _ prev hw hblocks]
    simp only [Bytes.flatten_chunks]
  | _ =>
    -- a byte mode: the same machine state both ways, by its shape
    simp only [transform, encrypt, Except.ok.injEq, Prod.mk.injEq] at h
    obtain ⟨rfl, rfl⟩ := h
    simp only [transform, decrypt, Arcfour.process, Arcfour.step_eq, Mode.Cfb.encryptStep_eq,
      Mode.Cfb.decryptStep_eq, Mode.Ofb.step_eq, Mode.Ncfb.encryptStep_eq,
      Mode.Ncfb.decryptStep_eq, Mode.Nofb.step_eq, Mode.Ctr.step_eq,
      Transducer.run_masking_masking, Transducer.run_feedDecrypt_feedEncrypt]

end Undo

/-! ## 5. Any number of calls, cut two ways -/

/-- **A fresh mode deciphers what a fresh copy of it enciphered, however either side cuts the
message into calls.**  The mode is any that a unit builds from a key and a vector it accepts,
and every piece handed to a call fits the mode (whole blocks for ECB and CBC).  The
deciphering copy ends in the state the enciphering copy reached. -/
theorem transformAll_decrypt_encrypt {mu : ModeUnit} {au : AlgorithmUnit} {key iv : Bytes}
    {m : KeyedMode} (hm : mu.build au key iv = .ok m) {ps : List Bytes}
    (hps : ∀ p ∈ ps, m.Fits p) :
    ∃ cs m', m.transformAll .encrypt ps = .ok (cs, m') ∧
      ∀ qs : List Bytes, qs.flatten = cs.flatten → (∀ q ∈ qs, m.Fits q) →
        ∃ ds, m.transformAll .decrypt qs = .ok (ds, m') ∧ ds.flatten = ps.flatten := by
  obtain ⟨cs, m', henc, hencOne, -⟩ := m.transformAll_flatten .encrypt ps hps
  have hdecOne : m.transform .decrypt cs.flatten = .ok (ps.flatten, m') :=
    decrypt_of_encrypt (ModeUnit.build_invertible hm) (ModeUnit.build_kind hm).2.2 hencOne
  refine ⟨cs, m', henc, fun qs hqs hfit => ?_⟩
  obtain ⟨ds, md, hdec, hone, -⟩ := m.transformAll_flatten .decrypt qs hfit
  rw [hqs, hdecOne, Except.ok.injEq, Prod.mk.injEq] at hone
  obtain ⟨hflat, rfl⟩ := hone
  exact ⟨ds, hdec, hflat.symm⟩

/-- IDEA in CBC, built by a unit from a key and a one-block vector, on a message of two blocks
handed over one block a call. -/
theorem transformAll_decrypt_encrypt_cbc_idea :
    ∃ m : KeyedMode, ModeUnit.build ⟨"cbc", .cbc⟩ ⟨"idea", .idea⟩
        [1, 2, 3, 4, 5, 6, 7, 8, 9, 10, 11, 12, 13, 14, 15, 16] [0, 0, 0, 0, 0, 0, 0, 1] = .ok m ∧
      (∀ p ∈ [[1, 2, 3, 4, 5, 6, 7, 8], [9, 10, 11, 12, 13, 14, 15, 16]], m.Fits p) ∧
      ∃ cs m', m.transformAll .encrypt [[1, 2, 3, 4, 5, 6, 7, 8], [9, 10, 11, 12, 13, 14, 15, 16]] =
          .ok (cs, m') ∧
        ∀ qs : List Bytes, qs.flatten = cs.flatten → (∀ q ∈ qs, m.Fits q) →
          ∃ ds, m.transformAll .decrypt qs = .ok (ds, m') ∧
            ds.flatten = [1, 2, 3, 4, 5, 6, 7, 8, 9, 10, 11, 12, 13, 14, 15, 16] :=
  ⟨_, rfl, by decide, @transformAll_decrypt_encrypt ⟨"cbc", .cbc⟩ ⟨"idea", .idea⟩
    [1, 2, 3, 4, 5, 6, 7, 8, 9, 10, 11, 12, 13, 14, 15, 16] [0, 0, 0, 0, 0, 0, 0, 1] _ rfl _
    (by decide)⟩

end KeyedMode

end CipherEngine
