import Srnd.Message.Body

/-!
# How deep `read_message_body` recurses

The envelope branch of `read_message_body` reads its body to `io.EOF`, parses
a header block from the buffer with `readMIMEHeader`, and calls itself on what
is left of the buffer: `Nests` is that one nested call.  `readMIMEHeader`
consumes at least the blank line that ends the block, so each nested call gets
a strictly shorter reader (`Nests.total_lt`), and the outer call returns what
the nested one returns (`Nests.readMessageBody_eq`).

`readMessageBody_nesting` puts these together over every chain of nested
calls (`NestChain`): a body of `n` bytes is unwrapped at most `n` times, the
chain always ends at a level that does not recurse, and the outer call
returns the result of that innermost level.
-/

namespace Srnd.Message

variable {Hdr Att : Type} (c : Codec Hdr Att)

/-- `read_message_body(body, hdr, …)` calls itself on `body'` under `hdr'`:
`hdr` selects the envelope branch with both signature headers set, the body
reads to `io.EOF` into the bytes `B` that are hashed and buffered, the check
passes over `SHA-512(B)`, and `readMIMEHeader` parses `hdr'` from `B`,
leaving the bytes of `body'`. -/
def Nests (body : Reader) (hdr : Hdr) (body' : Reader) (hdr' : Hdr) : Prop :=
  c.IsEnvelope hdr ∧ c.pubkey hdr ≠ "" ∧ c.signature hdr ≠ "" ∧
    ∃ B rest, readSigned body = .ok (B, B) ∧
      c.cryptoVerifyFucky (c.sha512 B) (c.unhex (c.signature hdr)) (c.unhex (c.pubkey hdr)) ∧
      (c.readMIMEHeader B).map Subtype.val = .ok (hdr', rest) ∧ body' = ofBytes rest

/-- A chain of nested calls: each level calls `read_message_body` on the
next. -/
def NestChain (levels : List (Reader × Hdr)) : Prop :=
  levels.Chain' fun a b => Nests c a.1 a.2 b.1 b.2

variable {c}

/-! ## One nested call -/

section Nests

variable {body body' : Reader} {hdr hdr' : Hdr}

theorem Nests.total_lt (h : Nests c body hdr body' hdr') : body'.total < body.total := by
  obtain ⟨-, -, -, B, rest, hr, -, hm, rfl⟩ := h
  cases hB : c.readMIMEHeader B with
  | error e => rw [hB] at hm; cases hm
  | ok p =>
    obtain ⟨⟨inner, rest'⟩, hlt⟩ := p
    rw [hB] at hm
    cases hm
    simpa [ofBytes, Reader.total] using lt_of_lt_of_le hlt (readSigned_length_le hr)

/-- The envelope branch returns what its nested call returns. -/
theorem Nests.readMessageBody_eq (store : Bool) (h : Nests c body hdr body' hdr') :
    readMessageBody c body hdr store = readMessageBody c body' hdr' store := by
  obtain ⟨⟨params, hp, hb⟩, hpk, hsig, B, rest, hr, hv, hm, rfl⟩ := h
  rw [readMessageBody]
  simp only [hp, hb, if_true, if_neg (not_or.2 ⟨hpk, hsig⟩)]
  split
  · rename_i e he
    rw [hr] at he
    cases he
  · rename_i hashed buff he
    rw [hr] at he
    cases he
    rw [if_pos hv]
    split
    · rename_i e he
      rw [he] at hm
      cases hm
    · rename_i inner rest' _ he
      rw [he] at hm
      cases hm
      rfl

end Nests

/-! ## Chains of nested calls -/

section Chains

theorem NestChain.tail {l : Reader × Hdr} {levels : List (Reader × Hdr)}
    (h : NestChain c (l :: levels)) : NestChain c levels :=
  List.Chain'.tail h

theorem NestChain.rel_head {body : Reader} {hdr : Hdr} {l : Reader × Hdr}
    {levels : List (Reader × Hdr)} (h : NestChain c ((body, hdr) :: l :: levels)) :
    Nests c body hdr l.1 l.2 :=
  List.Chain'.rel_head (R := fun a b : Reader × Hdr => Nests c a.1 a.2 b.1 b.2) h

/-- Along a chain of nested calls the readers get strictly shorter, so a body
of `n` bytes has at most `n` nested calls below it. -/
theorem length_le_of_nestChain (body : Reader) (hdr : Hdr) (nested : List (Reader × Hdr))
    (h : NestChain c ((body, hdr) :: nested)) : nested.length ≤ body.total := by
  induction nested generalizing body hdr with
  | nil => exact Nat.zero_le _
  | cons l nested ih =>
    have hn := h.rel_head
    have := ih l.1 l.2 h.tail
    have := hn.total_lt
    simp only [List.length_cons]
    omega

theorem readMessageBody_eq_getLast (store : Bool) (body : Reader) (hdr : Hdr)
    (nested : List (Reader × Hdr)) (h : NestChain c ((body, hdr) :: nested)) :
    let innermost := ((body, hdr) :: nested).getLast (List.cons_ne_nil _ _)
    readMessageBody c body hdr store = readMessageBody c innermost.1 innermost.2 store := by
  induction nested generalizing body hdr with
  | nil => rfl
  | cons l nested ih =>
    rw [h.rel_head.readMessageBody_eq store]
    exact ih l.1 l.2 h.tail

/-- From every level the nested calls end: there is a chain of them whose
last level does not recurse. -/
theorem exists_nestChain (body : Reader) (hdr : Hdr) :
    ∃ nested : List (Reader × Hdr), NestChain c ((body, hdr) :: nested) ∧
      ∀ b h, ¬ Nests c (((body, hdr) :: nested).getLast (List.cons_ne_nil _ _)).1
        (((body, hdr) :: nested).getLast (List.cons_ne_nil _ _)).2 b h := by
  induction' hn : body.total using Nat.strong_induction_on with n ih generalizing body hdr
  by_cases hnest : ∃ b h, Nests c body hdr b h
  · obtain ⟨b, h, hbh⟩ := hnest
    obtain ⟨nested, hchain, hlast⟩ := ih _ (hn ▸ hbh.total_lt) b h rfl
    refine ⟨(b, h) :: nested, List.Chain'.cons' hchain ?_, ?_⟩
    · intro l hl
      obtain rfl := Option.mem_some_iff.1 hl
      exact hbh
    · rwa [List.getLast_cons (List.cons_ne_nil _ _)]
  · push_neg at hnest
    exact ⟨[], List.chain'_singleton _, hnest⟩

end Chains

/-- `read_message_body` on a finite body recurses through the envelope branch
on strictly shorter readers, so it makes at most as many nested calls as the
body has bytes; its nested calls always end at a level that does not recurse,
and the outer call returns the result of that innermost level. -/
theorem readMessageBody_nesting (store : Bool) (body : Reader) (hdr : Hdr) :
    (∀ nested : List (Reader × Hdr), NestChain c ((body, hdr) :: nested) →
      (((body, hdr) :: nested).map fun l => l.1.total).Chain' (· > ·) ∧
        nested.length ≤ body.total) ∧
    ∃ nested : List (Reader × Hdr), NestChain c ((body, hdr) :: nested) ∧
      let innermost := ((body, hdr) :: nested).getLast (List.cons_ne_nil _ _)
      (∀ b h, ¬ Nests c innermost.1 innermost.2 b h) ∧
        readMessageBody c body hdr store = readMessageBody c innermost.1 innermost.2 store := by
  refine ⟨fun nested h => ⟨?_, length_le_of_nestChain body hdr nested h⟩, ?_⟩
  · exact List.chain'_map_of_chain' (R := fun a b : Reader × Hdr => Nests c a.1 a.2 b.1 b.2)
      _ (fun _ _ hab => hab.total_lt) h
  · obtain ⟨nested, h, hlast⟩ := exists_nestChain (c := c) body hdr
    exact ⟨nested, h, hlast, readMessageBody_eq_getLast store body hdr nested h⟩

end Srnd.Message
