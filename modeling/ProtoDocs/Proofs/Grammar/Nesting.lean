import Mathlib.Data.List.Forall2
import ProtoDocs.Proofs.Grammar.Progress

/-!
# The depth of nesting

The body of a message is read to a given depth.  A nested body begins at least one character further
than the body around it, so a depth past the length of the text is never used up, and one reader
stands for all such depths.

* `Agrees n p q`      the readers `p` and `q` come to the same on texts of fewer than `n` characters;
* `nestedBody`        the body of a message, with messages nested to any depth.

`messageBody_agrees` says that two depths past the length of a text come to the same, errors
included; `nestedBody_eq` is the recursion that `nestedBody` obeys, and `file_eq` reads a file with
it.
-/

namespace ProtoDocs.Reader

variable {α β : Type}

/-- the same outcome on all texts of fewer than `n` characters -/
def Agrees (n : Nat) (p q : Reader α) : Prop := ∀ t : Text, t.length < n → p t = q t

namespace Agrees

theorem refl (n : Nat) (p : Reader α) : Agrees n p p := fun _ _ => rfl

theorem mono {n m : Nat} {p q : Reader α} (h : Agrees n p q) (hm : m ≤ n) : Agrees m p q :=
  fun t ht => h t (Nat.lt_of_lt_of_le ht hm)

theorem bind {n : Nat} (p : Reader α) [Leaves p] {f g : α → Reader β}
    (h : ∀ a, Agrees n (f a) (g a)) : Agrees n (p >>= f) (p >>= g) := by
  intro t ht
  show Reader.bind p f t = Reader.bind p g t
  unfold Reader.bind
  rcases hp : p t with ⟨_ | ⟨a, r⟩, tried⟩
  · rfl
  · have hr : r.length ≤ t.length := (Leaves.suffix (p := p) (by rw [hp])).length_le
    simp only [h a r (Nat.lt_of_le_of_lt hr ht)]

/-- Behind a reader that takes something, one character less is enough. -/
theorem bind_consumes {n : Nat} (p : Reader α) [Consumes p] {f g : α → Reader β}
    (h : ∀ a, Agrees n (f a) (g a)) : Agrees (n + 1) (p >>= f) (p >>= g) := by
  intro t ht
  show Reader.bind p f t = Reader.bind p g t
  unfold Reader.bind
  rcases hp : p t with ⟨_ | ⟨a, r⟩, tried⟩
  · rfl
  · have hr : r.length < t.length := Consumes.shorter (p := p) (by rw [hp])
    simp only [h a r (by omega)]

theorem bind_same {n : Nat} {p q : Reader α} (h : Agrees n p q) (f : α → Reader β) :
    Agrees n (p >>= f) (q >>= f) := by
  intro t ht
  show Reader.bind p f t = Reader.bind q f t
  unfold Reader.bind
  rw [h t ht]

theorem orElse {n : Nat} {p p' q q' : Reader α} (hp : Agrees n p p') (hq : Agrees n q q') :
    Agrees n (orElse p q) (orElse p' q') := by
  intro t ht
  simp only [Reader.orElse, hp t ht, hq t ht]

theorem oneOf {n : Nat} {ps qs : List (Reader α)} (h : List.Forall₂ (Agrees n) ps qs) :
    Agrees n (oneOf ps) (oneOf qs) := by
  induction h with
  | nil => exact refl n _
  | cons hp _ ih => exact hp.orElse ih

theorem named {n : Nat} {p q : Reader α} (s : Symbol) (h : Agrees n p q) :
    Agrees n (named s p) (named s q) := by
  intro t ht
  simp only [Reader.named, h t ht]

theorem next {n : Nat} {p q : Reader α} (h : Agrees n p q) : Agrees n (next p) (next q) :=
  bind gap fun _ => h

theorem repeated {n : Nat} {p q : Reader α} (h : Agrees n p q) (t : Text) (ht : t.length < n) :
    repeated p t = repeated q t := by
  fun_induction Reader.repeated p t with
  | case1 t tried hp => rw [Reader.repeated, ← h t ht, hp]
  | case2 t tried a r hp hlt as s more heq ih =>
    rw [Reader.repeated, ← h t ht, hp]
    simp only [if_pos hlt, ← ih (Nat.lt_trans hlt ht), heq]
  | case3 t tried a r hp hlt =>
    rw [Reader.repeated, ← h t ht, hp]
    simp only [if_neg hlt]

theorem many {n : Nat} {p q : Reader α} (h : Agrees n p q) : Agrees n (many p) (many q) := by
  intro t ht
  simp only [Reader.many, h.repeated t ht]

end Agrees

/-! ## blocks around bodies that agree -/

section
variable {n : Nat}

theorem items_agrees {item item' : ItemReader} (h : Agrees n item item') :
    Agrees n (items item) (items item') :=
  ((Agrees.bind gap fun _ => h.bind_same _).many).bind_same _

theorem body_agrees (s : Symbol) {item item' : ItemReader} (h : Agrees n item item') :
    Agrees (n + 1) (body s item) (body s item') :=
  (Agrees.bind_consumes (mark '{') fun _ => (items_agrees h).bind_same _).named s

theorem ofBlock_agrees {p q : Reader Element} (h : Agrees n p q) :
    Agrees n (ofBlock p) (ofBlock q) :=
  h.bind_same _

variable {inner inner' : Reader (List Element)} (h : Agrees n inner inner')
include h

theorem message_agrees : Agrees (n + 1) (message inner) (message inner') :=
  (Agrees.bind_consumes (keyword .message) fun _ =>
    Agrees.bind (next ident) fun _ => h.next.bind_same _).named _

theorem group_agrees : Agrees (n + 1) (group inner) (group inner') :=
  (Agrees.bind (optional label) fun _ => Agrees.bind_consumes (next (keyword .group)) fun _ =>
    Agrees.bind (next ident) fun _ => Agrees.bind (next (mark '=')) fun _ =>
      Agrees.bind (next fieldNumber) fun _ => Agrees.bind (next memberOptions) fun _ =>
        h.next.bind_same _).named _

theorem oneof_agrees : Agrees (n + 1) (oneof inner) (oneof inner') := by
  have hitem := Agrees.oneOf (.cons (.refl (n + 1) (ofStatement setting))
    (.cons (ofBlock_agrees (group_agrees h)) (.cons (.refl (n + 1) (ofStatement field))
      (.cons (.refl (n + 1) emptyStatement) .nil))))
  exact (Agrees.bind_consumes (keyword .oneof) fun _ => Agrees.bind (next ident) fun _ =>
    ((body_agrees _ hitem).mono (by omega)).next.bind_same _).named _

theorem extend_agrees : Agrees (n + 1) (extend inner) (extend inner') := by
  have hitem := Agrees.oneOf (.cons (ofBlock_agrees (group_agrees h))
    (.cons (.refl (n + 1) (ofStatement field)) (.cons (.refl (n + 1) emptyStatement) .nil)))
  exact (Agrees.bind_consumes (keyword .extend) fun _ => Agrees.bind (next typeRef) fun _ =>
    ((body_agrees _ hitem).mono (by omega)).next.bind_same _).named _

theorem messageItem_agrees : Agrees (n + 1) (messageItem inner) (messageItem inner') :=
  Agrees.oneOf (.cons (.refl _ _) (.cons (ofBlock_agrees (message_agrees h)) (.cons (.refl _ _)
    (.cons (ofBlock_agrees (oneof_agrees h)) (.cons (.refl _ _)
      (.cons (ofBlock_agrees (extend_agrees h)) (.cons (.refl _ _) (.cons (.refl _ _)
        (.cons (ofBlock_agrees (group_agrees h)) (.cons (.refl _ _)
          (.cons (.refl _ _) .nil)))))))))))

theorem fileItem_agrees : Agrees (n + 1) (fileItem inner) (fileItem inner') :=
  Agrees.oneOf (.cons (.refl _ _) (.cons (.refl _ _) (.cons (.refl _ _) (.cons (.refl _ _)
    (.cons (.refl _ _) (.cons (ofBlock_agrees (message_agrees h)) (.cons (.refl _ _)
      (.cons (.refl _ _) (.cons (ofBlock_agrees (extend_agrees h))
        (.cons (.refl _ _) .nil))))))))))

end

/-! ## bodies of messages -/

/-- A depth past the length of the text is not used up. -/
theorem messageBody_agrees {d d' : Nat} (h : d ≤ d') :
    Agrees d (messageBody d) (messageBody d') := by
  induction d generalizing d' with
  | zero => exact fun t ht => absurd ht (Nat.not_lt_zero _)
  | succ d ih =>
    obtain ⟨d', rfl⟩ : ∃ k, d' = k + 1 := ⟨d' - 1, by omega⟩
    exact (body_agrees _ (messageItem_agrees (ih (Nat.le_of_succ_le_succ h)))).mono (by omega)

/-- the body of a message, where message bodies nest to any depth -/
def nestedBody : Reader (List Element) := fun t => messageBody (t.length + 1) t

theorem messageBody_agrees_nestedBody (d : Nat) : Agrees d (messageBody d) nestedBody :=
  fun t ht => (messageBody_agrees ht t (Nat.lt_succ_self _)).symm

theorem nestedBody_eq : nestedBody = body .messageBody (messageItem nestedBody) := by
  funext t
  have h := messageItem_agrees (messageBody_agrees_nestedBody t.length)
  exact body_agrees .messageBody h t (by omega)

theorem file_eq (t : Text) :
    Reader.file t = named .file (do
      let es ← items (fileItem nestedBody)
      endOfInput
      return es) t := by
  have h := fileItem_agrees (messageBody_agrees_nestedBody t.length)
  exact ((items_agrees h).bind_same _).named .file t (Nat.lt_succ_self _)

instance : Consumes nestedBody where
  suffix h := Leaves.suffix (p := messageBody _) h
  shorter h := Consumes.shorter (p := messageBody _) h

end ProtoDocs.Reader
