import ProtoDocs.Grammar.Attempts
import ProtoDocs.Grammar.Lexeme

/-!
# Readers

A reader takes a value off the front of a text or fails, and in both cases reports what it tried in
vain on the way. Between two tokens it skips blanks and comments. Like recognisers, readers choose
in order and never undo a choice.

* `Outcome`, `Reader`       the result of a reading with its attempts, and the readers as a monad;
* `Reader.orElse`, `Reader.oneOf`, `Reader.optional`, `Reader.many`   choice and repetition;
* `Reader.named`            a part with a name of its own in error reports;
* `Reader.token`, `Reader.mark`   a named lexeme, and a single character without a name;
* `Reader.gap`              blanks and comments, giving the comments;
* `Reader.next`             a part after a gap whose comments are dropped.

`Reader.result_bind` and its neighbours say what each combination reads; the attempts never have a
say in it.
-/

namespace ProtoDocs

/-- what was read and what is left, if the reading succeeded, and what was tried in vain -/
structure Outcome (α : Type) where
  result : Option (α × Text)
  attempts : Attempts

def Reader (α : Type) := Text → Outcome α

namespace Reader

variable {α β : Type}

def pure (a : α) : Reader α := fun t => ⟨some (a, t), .none⟩

def bind (p : Reader α) (f : α → Reader β) : Reader β := fun t =>
  match p t with
  | ⟨none, tried⟩ => ⟨none, tried⟩
  | ⟨some (a, r), tried⟩ =>
    let o := f a r
    ⟨o.result, tried.join o.attempts⟩

instance : Monad Reader where
  pure := Reader.pure
  bind := Reader.bind

def fail : Reader α := fun _ => ⟨none, .none⟩

/-! ## choice and repetition -/

/-- the first reader, or the second one at the same place if the first one fails -/
def orElse (p q : Reader α) : Reader α := fun t =>
  match p t with
  | ⟨none, tried⟩ =>
    let o := q t
    ⟨o.result, tried.join o.attempts⟩
  | o => o

def oneOf (ps : List (Reader α)) : Reader α := ps.foldr orElse fail

def optional (p : Reader α) : Reader (Option α) :=
  orElse (do let a ← p; return some a) (return none)

/-- what `p` reads as often as it can, with what is left and what was tried -/
def repeated (p : Reader α) (t : Text) : (List α × Text) × Attempts :=
  match p t with
  | ⟨none, tried⟩ => (([], t), tried)
  | ⟨some (a, r), tried⟩ =>
    if r.length < t.length then
      let ((as, s), more) := repeated p r
      ((a :: as, s), tried.join more)
    else (([], t), tried)
termination_by t.length

def many (p : Reader α) : Reader (List α) := fun t =>
  let (found, tried) := repeated p t
  ⟨some found, tried⟩

/-! ## names -/

/-- a reader whose failure at its own beginning is reported under a name -/
def named (s : Symbol) (p : Reader α) : Reader α := fun t =>
  match p t with
  | ⟨none, tried⟩ => ⟨none, tried.blame s t.length⟩
  | o => o

/-- a lexeme with a name, read as its text -/
def token (s : Symbol) (p : Scan) : Reader Text := fun t =>
  match p t with
  | none => ⟨none, .one t.length s⟩
  | some r => ⟨some (t.upTo r, r), .none⟩

def mark (c : Char) : Reader Unit := fun t =>
  ⟨(Scan.char (· == c) t).map ((), ·), .none⟩

def endOfInput : Reader Unit := fun t =>
  if t.isEmpty then ⟨some ((), t), .none⟩ else ⟨none, .one t.length .endOfInput⟩

/-! ## gaps -/

/-- the comments in front of the next token, and the text from that token on -/
def skip (t : Text) : List Text × Text :=
  match _h : Lexeme.comment (Lexeme.pastSpace t) with
  | none => ([], Lexeme.pastSpace t)
  | some r =>
    let (comments, u) := skip r
    ((Lexeme.pastSpace t).upTo r :: comments, u)
termination_by t.length
decreasing_by
  have h₁ := (Lexeme.consumes_comment _ _ _h).2
  have h₂ := (List.dropWhile_suffix Lexeme.isSpace (l := t)).length_le
  simp only [Lexeme.pastSpace] at h₁
  omega

/-- blanks and comments; a gap ends where no further comment was found -/
def gap : Reader (List Text) := fun t =>
  let (comments, r) := skip t
  ⟨some (comments, r), .one r.length .comment⟩

/-- a part after a gap -/
def next (p : Reader α) : Reader α := do
  let _ ← gap
  p

/-! ## what combinations read -/

@[simp] theorem result_pure (a : α) (t : Text) : (Pure.pure a : Reader α) t = ⟨some (a, t), .none⟩ :=
  rfl

theorem result_bind (p : Reader α) (f : α → Reader β) (t : Text) :
    ((p >>= f) t).result = (p t).result.bind fun x => (f x.1 x.2).result := by
  show (Reader.bind p f t).result = _
  unfold Reader.bind
  rcases h : p t with ⟨_ | ⟨a, r⟩, tried⟩ <;> simp

theorem result_orElse (p q : Reader α) (t : Text) :
    (orElse p q t).result = (p t).result.or (q t).result := by
  unfold orElse
  rcases h : p t with ⟨_ | x, tried⟩ <;> simp

theorem result_named (s : Symbol) (p : Reader α) (t : Text) :
    (named s p t).result = (p t).result := by
  unfold named
  rcases h : p t with ⟨_ | x, tried⟩ <;> simp

theorem result_token (s : Symbol) (p : Scan) (t : Text) :
    (token s p t).result = (p t).map fun r => (t.upTo r, r) := by
  unfold token
  cases p t <;> rfl

end Reader
end ProtoDocs
