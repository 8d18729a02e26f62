import Coordination.Rehearsal.Step

/-! # Masked tokens

Random tokens differ from run to run, so a transcript shows them by number, in the order in which they first reach
the store. Next to a token the time of a claim is shown as zero.
-/
namespace Coordination.Rehearsal

/-- The form of a random identifier: `x` is any hexadecimal digit and `v` one of the variant. -/
def tokenForm : List Char := "xxxxxxxx-xxxx-4xxx-vxxx-xxxxxxxxxxxx".toList

def isHexDigit (c : Char) : Bool := c.isDigit || ('a' ≤ c && c ≤ 'f')

def fits (form c : Char) : Bool :=
  if form = 'x' then isHexDigit c
  else if form = 'v' then c == '8' || c == '9' || c == 'a' || c == 'b'
  else c == form

def startsWithForm : List Char → List Char → Bool
  | [], _ => true
  | _ :: _, [] => false
  | form :: forms, c :: cs => fits form c && startsWithForm forms cs

/-- The tokens in a text, last first; `skip` characters belong to a token that was found. -/
def collectTokens (found : List String) : Nat → List Char → List String
  | _, [] => found
  | skip + 1, _ :: cs => collectTokens found skip cs
  | 0, c :: cs =>
    if startsWithForm tokenForm (c :: cs) then
      collectTokens (String.ofList ((c :: cs).take tokenForm.length) :: found) (tokenForm.length - 1) cs
    else collectTokens found 0 cs

def tokensIn (text : String) : List String := (collectTokens [] 0 text.toList).reverse

/-- The texts of a call in the order in which they are shown. -/
def Call.texts (call : Call) : List String :=
  let arguments := match call.request with
    | .ping => []
    | .setIfAbsent key value _ => [key, value]
    | .get key => [key]
    | .set key value _ => [key, value]
    | .delete key => [key]
    | .increment key _ _ => [key]
    | .ttlRemaining key => [key]
    | .compareAndDelete key expected => [key, expected]
  match call with
  | ⟨.get _, .ok (some s)⟩ => arguments ++ [s]
  | _ => arguments

/-- Adds a token to a numbering unless it has a number. -/
def enlist (known : List String) (token : String) : List String :=
  if known.contains token then known else known ++ [token]

/-- The tokens of a run's calls by first appearance. -/
def numbering (calls : List Call) : List String := (calls.flatMap fun c => c.texts.flatMap tokensIn).foldl enlist []

/-- What is shown for a token. -/
def maskOf (known : List String) (token : String) : String :=
  match known.idxOf? token with
  | some i => s!"<uuid{i + 1}>"
  | none => token

def maskTokens (known : List String) (done : List Char) : Nat → List Char → List Char
  | _, [] => done.reverse
  | skip + 1, _ :: cs => maskTokens known done skip cs
  | 0, c :: cs =>
    if startsWithForm tokenForm (c :: cs) then
      let token := String.ofList ((c :: cs).take tokenForm.length)
      maskTokens known ((maskOf known token).toList.reverse ++ done) (tokenForm.length - 1) cs
    else maskTokens known (c :: done) 0 cs

/-- What stands in front of the time of a claim. -/
def timeLabel : List Char := "\"started_at\":".toList

/-- Shows zero for the times of claims; `inTime` while their digits are passed over. -/
def zeroTimes (done : List Char) (inTime : Bool) : List Char → List Char
  | [] => done.reverse
  | c :: cs =>
    if inTime && c.isDigit then zeroTimes done true cs
    else
      let done := c :: done
      if c == ':' && timeLabel.reverse.isPrefixOf done && (cs.head?.any Char.isDigit) then
        zeroTimes ('0' :: done) true cs
      else zeroTimes done false cs

/-- A text as it is shown in a transcript. -/
def mask (known : List String) (text : String) : String :=
  let cs := text.toList
  if tokensIn text = [] then text else String.ofList (zeroTimes [] false (maskTokens known [] 0 cs))

end Coordination.Rehearsal
