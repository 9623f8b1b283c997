import RemudaRmm.Foundation.Encodings

/-! An ideal authenticated cipher: what has been sealed opens under its own key, nonce and associated data, and
nothing else does. -/
namespace RemudaRmm.Foundation

structure Sealed where
  (ciphertext authTag : Bytes)

structure AuthenticatedCipher where
  encrypt (key iv aad plaintext : Bytes) : Sealed
  decrypt (key iv aad : Bytes) (s : Sealed) : Except String Bytes
  decrypt_encrypt : ∀ key iv aad plaintext, decrypt key iv aad (encrypt key iv aad plaintext) = .ok plaintext
  encrypt_of_decrypt : ∀ {key iv aad s plaintext}, decrypt key iv aad s = .ok plaintext → s = encrypt key iv aad plaintext
  decrypt_other : ∀ {key iv aad key' aad'}, key ≠ key' ∨ aad ≠ aad' →
    ∀ plaintext opened, decrypt key' iv aad' (encrypt key iv aad plaintext) ≠ .ok opened
  authTag_ne_nil : ∀ key iv aad plaintext, (encrypt key iv aad plaintext).authTag ≠ []
  ciphertext_ne_nil : ∀ key iv aad {plaintext}, plaintext ≠ [] → (encrypt key iv aad plaintext).ciphertext ≠ []

theorem AuthenticatedCipher.encrypt_inj (cipher : AuthenticatedCipher)
    {key iv aad plaintext key' aad' plaintext' : Bytes}
    (same : cipher.encrypt key iv aad plaintext = cipher.encrypt key' iv aad' plaintext') : key = key' ∧ aad = aad' := by
  by_contra other
  rw [not_and_or] at other
  apply cipher.decrypt_other other plaintext plaintext'
  rw [same, cipher.decrypt_encrypt]

/-! ### A cipher that is one

The tag spells out what the text was sealed under. -/

/-- The bytes with a mark in front of each, and another mark at the end. -/
def framed (bytes rest : Bytes) : Bytes := bytes.foldr (fun b t => 1 :: b :: t) (0 :: rest)

theorem framed_inj {a b r s : Bytes} (same : framed a r = framed b s) : a = b ∧ r = s := by
  induction a generalizing b with
  | nil =>
    cases b with
    | nil => exact ⟨rfl, (List.cons.inj same).2⟩
    | cons y b => exact absurd (List.cons.inj same).1 (by decide)
  | cons x a ih =>
    cases b with
    | nil => exact absurd (List.cons.inj same).1 (by decide)
    | cons y b =>
      obtain ⟨first, rest⟩ := List.cons.inj (List.cons.inj same).2
      obtain ⟨rfl, after⟩ := ih rest
      exact ⟨by rw [first], after⟩

def spelledTag (key iv aad : Bytes) : Bytes := framed key (framed iv (framed aad []))

theorem spelledTag_inj {key iv aad key' iv' aad' : Bytes} (same : spelledTag key iv aad = spelledTag key' iv' aad') :
    key = key' ∧ iv = iv' ∧ aad = aad' := by
  obtain ⟨first, rest⟩ := framed_inj same
  obtain ⟨second, rest⟩ := framed_inj rest
  exact ⟨first, second, (framed_inj rest).1⟩

theorem framed_ne_nil (bytes rest : Bytes) : framed bytes rest ≠ [] := by
  cases bytes with
  | nil => exact List.cons_ne_nil 0 rest
  | cons b bytes => exact List.cons_ne_nil 1 _

def spelledCipher : AuthenticatedCipher where
  encrypt key iv aad plaintext := ⟨plaintext, spelledTag key iv aad⟩
  decrypt key iv aad s :=
    if s.authTag = spelledTag key iv aad then .ok s.ciphertext
    else .error "Unsupported state or unable to authenticate data"
  decrypt_encrypt _ _ _ _ := if_pos rfl
  encrypt_of_decrypt {key iv aad s plaintext} opened := by
    split_ifs at opened with tag
    rw [← Except.ok.inj opened, ← tag]
  decrypt_other {key iv aad key' aad'} other plaintext opened same := by
    split_ifs at same with tag
    obtain ⟨keys, -, data⟩ := spelledTag_inj tag
    exact other.elim (fun apart => apart keys) (fun apart => apart data)
  authTag_ne_nil key _ _ _ := framed_ne_nil key _
  ciphertext_ne_nil _ _ _ _ some_byte := some_byte

end RemudaRmm.Foundation
