import Corewise.Text.Blank
/-!
Parsers of characters. They are greedy and do not take back what they have taken, but for a repetition that
comes to an item it cannot take: that goes back behind the last item. Where it gave up is kept, and when the text is
refused after all, the error is the furthest of these places.
-/

namespace Corewise.Combinator

/-- A place at which a parser could not go on: what is left of the text there. -/
abbrev Stop := List Char

/-- The stop that lies further on in the text. There are no two at one place. -/
def furthest (a b : Stop) : Stop := if b.length < a.length then b else a

/-- A stop, or one given up earlier if that lies further on. -/
def further (stop : Stop) : Option Stop → Stop
  | none => stop
  | some earlier => furthest stop earlier

def furthest? : Option Stop → Option Stop → Option Stop
  | none, b => b
  | some a, b => some (further a b)

/-- What a parser has taken. -/
structure Match (α : Type) where
  value : α
  /-- What is left of the text. -/
  rest : List Char
  /-- The furthest place at which it has tried to go on and could not. -/
  abandoned : Option Stop

abbrev Parser (α : Type) := List Char → Except Stop (Match α)

variable {α β : Type}

/-- A character of some kind. -/
def satisfy (p : Char → Bool) : Parser Char
  | [] => .error []
  | c :: rest => if p c then .ok ⟨c, rest, none⟩ else .error (c :: rest)

/-- These characters. -/
def just : List Char → Parser Unit
  | [], cs => .ok ⟨(), cs, none⟩
  | _ :: _, [] => .error []
  | d :: ds, c :: rest => if c = d then just ds rest else .error (c :: rest)

/-- The end of the text. -/
def atEnd : Parser Unit
  | [] => .ok ⟨(), [], none⟩
  | c :: rest => .error (c :: rest)

def map (f : α → β) (p : Parser α) : Parser β := fun cs =>
  (p cs).map fun m => ⟨f m.value, m.rest, m.abandoned⟩

/-- One parser after the other. -/
def andThen (p : Parser α) (q : Parser β) : Parser (α × β) := fun cs =>
  match p cs with
  | .error stop => .error stop
  | .ok first =>
    match q first.rest with
    | .error stop => .error (further stop first.abandoned)
    | .ok second =>
      .ok ⟨(first.value, second.value), second.rest, furthest? first.abandoned second.abandoned⟩

def thenIgnore (p : Parser α) (q : Parser β) : Parser α := map Prod.fst (andThen p q)

def delimitedBy (p : Parser α) (opening closing : Parser Unit) : Parser α :=
  thenIgnore (map Prod.snd (andThen opening p)) closing

/-- With blanks around it. -/
def padded (p : Parser α) : Parser α := fun cs =>
  (p (cs.dropWhile isBlank)).map fun m => { m with rest := m.rest.dropWhile isBlank }

/-- With what is left of the text in front of it and behind it. -/
def spanned (p : Parser α) : Parser (α × List Char × List Char) := fun cs =>
  (p cs).map fun m => ⟨(m.value, cs, m.rest), m.rest, m.abandoned⟩

/-- As many items as there are, but no more than a number. -/
def many (p : Parser α) : Nat → List Char → Match (List α)
  | 0, cs => ⟨[], cs, none⟩
  | n + 1, cs =>
    match p cs with
    | .error stop => ⟨[], cs, some stop⟩
    | .ok first =>
      let more := many p n first.rest
      ⟨first.value :: more.value, more.rest, furthest? first.abandoned more.abandoned⟩

/-- Any number of items, each of them a character at least. -/
def repeated (p : Parser α) : Parser (List α) := fun cs => .ok (many p (cs.length + 1) cs)

/-- The items that follow the first one, each behind a separator, with the stop behind the last of them. -/
def continued (item : Parser α) (separator : Parser Unit) : Nat → List Char → Match (List α) × Stop
  | 0, cs => (⟨[], cs, none⟩, cs)
  | n + 1, cs =>
    match separator cs with
    | .error stop => (⟨[], cs, none⟩, stop)
    | .ok between =>
      match item between.rest with
      | .error stop => (⟨[], cs, between.abandoned⟩, stop)
      | .ok next =>
        let (more, stop) := continued item separator n next.rest
        (⟨next.value :: more.value, more.rest,
          furthest? (furthest? between.abandoned next.abandoned) more.abandoned⟩, stop)

/-- With one more separator, if there is one. -/
def trailing (separator : Parser Unit) (m : Match α) : Match α :=
  match separator m.rest with
  | .error stop => { m with abandoned := furthest? m.abandoned (some stop) }
  | .ok last => ⟨m.value, last.rest, furthest? m.abandoned last.abandoned⟩

/-- Items with separators between them. A separator may also stand behind the last item if `allowTrailing` says
so, and without items there is none. -/
def separatedBy (item : Parser α) (separator : Parser Unit) (allowTrailing : Bool) (atLeast : Nat) :
    Parser (List α) := fun cs =>
  match item cs with
  | .error stop => if atLeast = 0 then .ok ⟨[], cs, some stop⟩ else .error stop
  | .ok first =>
    let (more, stop) := continued item separator (first.rest.length + 1) first.rest
    let items : Match (List α) :=
      ⟨first.value :: more.value, more.rest, furthest? first.abandoned more.abandoned⟩
    let items := if allowTrailing then trailing separator items else items
    if atLeast ≤ items.value.length then
      .ok { items with abandoned := furthest? items.abandoned (some stop) }
    else .error stop

end Corewise.Combinator
