namespace TrafficMonitor.Toml

abbrev Reader (α : Type) := List Char → Option (α × List Char)

def isBlank (c : Char) : Bool := c == ' ' || c == '\t'

def isPlain (c : Char) : Bool := c == '\t' || (0x20 ≤ c.toNat && c.toNat ≠ 0x7F)

def newline? : List Char → Option (List Char)
  | '\n' :: cs => some cs
  | '\r' :: '\n' :: cs => some cs
  | _ => none

def hexValue? (c : Char) : Option Nat :=
  if c.isDigit then some (c.toNat - '0'.toNat)
  else if 'a' ≤ c ∧ c ≤ 'f' then some (c.toNat - 'a'.toNat + 10)
  else if 'A' ≤ c ∧ c ≤ 'F' then some (c.toNat - 'A'.toNat + 10)
  else none

def charOfHex? (digits : List Char) : Option Char := do
  let n ← digits.foldlM (fun n c => (hexValue? c).map (16 * n + ·)) 0
  if n.isValidChar then some (Char.ofNat n) else none

def escape? : Reader Char
  | 'b' :: cs => some ('\x08', cs)
  | 't' :: cs => some ('\t', cs)
  | 'n' :: cs => some ('\n', cs)
  | 'f' :: cs => some ('\x0c', cs)
  | 'r' :: cs => some ('\r', cs)
  | '"' :: cs => some ('"', cs)
  | '\\' :: cs => some ('\\', cs)
  | 'u' :: cs => if cs.length < 4 then none else (charOfHex? (cs.take 4)).map (·, cs.drop 4)
  | 'U' :: cs => if cs.length < 8 then none else (charOfHex? (cs.take 8)).map (·, cs.drop 8)
  | _ => none

def prepend (front : List Char) : Option (List Char × List Char) → Option (List Char × List Char) :=
  Option.map fun (cs, rest) => (front ++ cs, rest)

def basicBody : Nat → Reader (List Char)
  | 0, _ => none
  | _, [] => none
  | _, '"' :: cs => some ([], cs)
  | fuel + 1, '\\' :: cs =>
    match escape? cs with
    | none => none
    | some (c, cs) => prepend [c] (basicBody fuel cs)
  | fuel + 1, c :: cs => if isPlain c then prepend [c] (basicBody fuel cs) else none

def continuation? (cs : List Char) : Option (List Char) :=
  (newline? (cs.dropWhile isBlank)).map skipLines
where
  skipLines : List Char → List Char
    | '\r' :: '\n' :: cs => skipLines cs
    | '\n' :: cs => skipLines cs
    | ' ' :: cs => skipLines cs
    | '\t' :: cs => skipLines cs
    | cs => cs

/-- What a run of quotes in a string of several lines means: up to two are part of it, and three
close it, with up to two more before them. -/
def closing? (quote : Char) (cs : List Char) : Option (List Char) × List Char :=
  let run := (cs.takeWhile (· == quote)).length
  if run < 3 then (some (List.replicate run quote), cs.drop run)
  else
    let inside := min run 5 - 3
    (none, List.replicate inside quote)

def linesBody (quote : Char) (escapes : Bool) : Nat → Reader (List Char)
  | 0, _ => none
  | _, [] => none
  | fuel + 1, c :: cs =>
    if c = quote then
      match closing? quote (c :: cs) with
      | (some inside, rest) => prepend inside (linesBody quote escapes fuel rest)
      | (none, inside) => some (inside, (c :: cs).drop (inside.length + 3))
    else
      match newline? (c :: cs) with
      | some rest => prepend ['\n'] (linesBody quote escapes fuel rest)
      | none =>
        if c = '\\' ∧ escapes then
          match continuation? cs with
          | some rest => linesBody quote escapes fuel rest
          | none =>
            match escape? cs with
            | none => none
            | some (d, rest) => prepend [d] (linesBody quote escapes fuel rest)
        else if isPlain c then prepend [c] (linesBody quote escapes fuel cs)
        else none

def literalBody (cs : List Char) : Option (List Char × List Char) :=
  match cs.span fun c => isPlain c && c != '\'' with
  | (text, '\'' :: rest) => some (text, rest)
  | _ => none

def dropNewline (cs : List Char) : List Char := (newline? cs).getD cs

def lineString? : Reader (List Char)
  | '"' :: cs => basicBody (cs.length + 1) cs
  | '\'' :: cs => literalBody cs
  | _ => none

def string? : Reader (List Char)
  | '"' :: '"' :: '"' :: cs => linesBody '"' true (cs.length + 1) (dropNewline cs)
  | '\'' :: '\'' :: '\'' :: cs => linesBody '\'' false (cs.length + 1) (dropNewline cs)
  | cs => lineString? cs

def isBare (c : Char) : Bool := c.isAlphanum || c == '_' || c == '-'

def simpleKey? : Reader String
  | [] => none
  | c :: cs =>
    if c == '"' || c == '\'' then (lineString? (c :: cs)).map fun (key, rest) => (.ofList key, rest)
    else
      match (c :: cs).span isBare with
      | ([], _) => none
      | (key, rest) => some (.ofList key, rest)

def dottedKey? : Nat → Reader (List String)
  | 0, _ => none
  | fuel + 1, cs =>
    match simpleKey? (cs.dropWhile isBlank) with
    | none => none
    | some (key, rest) =>
      match rest.dropWhile isBlank with
      | '.' :: more => (dottedKey? fuel more).map fun (keys, rest) => (key :: keys, rest)
      | rest => some ([key], rest)

def maxKeys : Nat := 79

def key? (cs : List Char) : Option (List String × List Char) :=
  (dottedKey? (cs.length + 1) cs).filter fun (keys, _) => keys.length ≤ maxKeys

end TrafficMonitor.Toml
