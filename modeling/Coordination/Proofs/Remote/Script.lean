import Coordination.Proofs.Remote.Keyspace

/-! # Scripts on a store server

The two scripts of the client, as routines whose texts they are, and what a server does when it runs one. The numbers of
a routine are floating-point numbers, so that an integer in a reply comes through a routine as the nearest of these. An
error of a command ends the routine, and nothing that was done before it is undone.
-/
namespace Coordination.Remote

/-- One of the texts that a routine is called with, counted from zero. -/
inductive Place where
  | key (i : Nat)
  | argument (i : Nat)
deriving DecidableEq, Repr

inductive Expression where
  | call (command : String) (arguments : List Place)
  | place (p : Place)
  | number (n : Int)
  | name (x : String)
deriving DecidableEq, Repr

inductive Line where
  | assign (x : String) (e : Expression)
  | perform (e : Expression)
  | giveBack (e : Expression)
deriving DecidableEq, Repr

inductive Statement where
  | line (l : Line)
  | whenEqual (a b : Expression) (body : List Line)
deriving DecidableEq, Repr

abbrev Routine := List Statement

def Place.text : Place → String
  | .key i => s!"KEYS[{i + 1}]"
  | .argument i => s!"ARGV[{i + 1}]"

def Expression.text : Expression → String
  | .call command arguments => s!"redis.call('{command}', " ++ ", ".intercalate (arguments.map Place.text) ++ ")"
  | .place p => p.text
  | .number n => toString n
  | .name x => x

def Line.text : Line → String
  | .assign x e => s!"local {x} = {e.text}\n"
  | .perform e => s!"{e.text}\n"
  | .giveBack e => s!"return {e.text}\n"

def Statement.text : Statement → String
  | .line l => l.text
  | .whenEqual a b body =>
    s!"if {a.text} == {b.text} then\n" ++ String.join (body.map fun l => "    " ++ l.text) ++ "end\n"

def Routine.text (p : Routine) : String := "\n" ++ String.join (p.map Statement.text)

namespace Routine

def compareAndDelete : Routine := [
  .whenEqual (.call "GET" [.key 0]) (.place (.argument 0)) [.giveBack (.call "DEL" [.key 0])],
  .line (.giveBack (.number 0))]

def increment : Routine := [
  .line (.assign "count" (.call "INCRBY" [.key 0, .argument 0])),
  .whenEqual (.call "PTTL" [.key 0]) (.number (-1)) [.perform (.call "PEXPIRE" [.key 0, .argument 1])],
  .line (.giveBack (.name "count"))]

theorem text_compareAndDelete : compareAndDelete.text = Script.compareAndDelete.text := by decide +kernel

theorem text_increment : increment.text = Script.increment.text := by decide +kernel

end Routine

/-- The nearest number with 53 binary digits; of two as near the one that is even. -/
def nearest (n : Nat) : Nat :=
  let step := Nat.pow 2 (n.log2 - 52)
  let low := n / step
  let rest := n % step
  if rest * 2 < step ∨ rest * 2 = step ∧ low % 2 = 0 then low * step else (low + 1) * step

/-- The floating-point number that an integer becomes. -/
def rounded (n : Int) : Int := if n < 0 then -nearest n.natAbs else nearest n.natAbs

def exactBound : Nat := Nat.pow 2 53

theorem nearest_eq {n : Nat} (h : n ≤ exactBound) : nearest n = n := by
  have hlog : n.log2 ≤ 52 ∨ n = exactBound := by
    by_cases hn : n = 0
    · exact .inl (by subst hn; decide)
    · by_cases htop : n = exactBound
      · exact .inr htop
      · have := (Nat.log2_lt hn).2 (Nat.lt_of_le_of_ne h htop)
        omega
  rcases hlog with hlog | rfl
  · simp [nearest, Nat.sub_eq_zero_of_le hlog, Nat.mod_one]
  · decide

theorem rounded_eq {n : Int} (h : n.natAbs ≤ exactBound) : rounded n = n := by
  rw [rounded, nearest_eq h]
  split <;> omega

theorem contains_of_exact {n : Int} (h : n.natAbs ≤ exactBound) : Reply.integerBounds.contains n = true := by
  have hbound : exactBound = 9007199254740992 := by decide
  have hlow : Reply.integerBounds.low = -9223372036854775808 := by decide
  have hhigh : Reply.integerBounds.high = 9223372036854775807 := by decide
  exact Bounds.contains_iff.2 (by omega)

theorem rounded_nonneg {n : Int} (h : 0 ≤ n) : 0 ≤ rounded n := by
  rw [rounded, if_neg (Int.not_lt.2 h)]
  exact Int.natCast_nonneg _

/-- Past the bound, two integers become one number. -/
example : rounded (exactBound + 1) = rounded exactBound := by decide

inductive Value where
  | text (bytes : ByteArray)
  | number (x : Int)
  | table (r : Reply)
  | missing

namespace Value

def ofReply : Reply → Value
  | .bulk bytes => .text bytes
  | .integer n => .number (rounded n)
  | .nil => .missing
  | r => .table r

def reply : Value → Reply
  | .text bytes => .bulk bytes
  | .number x => .integer x
  | .table r => r
  | .missing => .nil

/-- Whether two values are equal to a routine, tables apart. -/
def same : Value → Value → Bool
  | .text a, .text b => a.data = b.data
  | .number x, .number y => x == y
  | .missing, .missing => true
  | _, _ => false

theorem same_text (s t : String) : same (.text s.toUTF8) (.text t.toUTF8) = decide (s = t) := by
  simp [same, ← ByteArray.ext_iff, String.toByteArray_inj]

end Value

structure Given where
  keys : List String
  arguments : List String
deriving DecidableEq, Repr

/-- The values under the names that are known, those named last first. -/
abbrev Locals := List (String × Value)

/-- What is done with the keys from some point on, up to the reply at the end. -/
abbrev Rest := Keyspace → Reply × Keyspace

def Place.find? (given : Given) : Place → Option String
  | .key i => given.keys[i]?
  | .argument i => given.arguments[i]?

section Running
variable (now : Nat) (given : Given)

def runCommand (next : Value → Rest) (c : Command) : Rest := fun items =>
  match items.run now c with
  | (.error text, items) => (.error text, items)
  | (r, items) => next (.ofReply r) items

def Expression.run (locals : Locals) (next : Value → Rest) : Expression → Rest
  | .call command arguments =>
    match arguments.mapM (Place.find? given) with
    | some texts => runCommand now next (command :: texts)
    | none => fun items => (.error "ERR command arguments must be strings or integers", items)
  | .place p => next (((p.find? given).map fun s => .text s.toUTF8).getD .missing)
  | .number n => next (.number n)
  | .name x => next ((locals.lookup x).getD .missing)

def Line.run (locals : Locals) (next : Locals → Rest) : Line → Rest
  | .assign x e => e.run now given locals fun v => next ((x, v) :: locals)
  | .perform e => e.run now given locals fun _ => next locals
  | .giveBack e => e.run now given locals fun v items => (v.reply, items)

/-- The names that are given in a body are not known after it. -/
def runBody (next : Rest) : Locals → List Line → Rest
  | _, [] => next
  | locals, l :: rest => l.run now given locals fun locals => runBody next locals rest

def Statement.run (locals : Locals) (next : Locals → Rest) : Statement → Rest
  | .line l => l.run now given locals next
  | .whenEqual a b body =>
    a.run now given locals fun x => b.run now given locals fun y =>
      if x.same y then runBody now given (next locals) locals body else next locals

def Routine.runFrom (locals : Locals) : Routine → Rest
  | [] => fun items => (.nil, items)
  | s :: rest => s.run now given locals fun locals => runFrom locals rest

/-- What a routine replies, and the keys after it. -/
def Routine.run (p : Routine) : Rest := p.runFrom now given []

end Running

/-- What is done leaves the deadlines of the keys in time. -/
def Keeps (rest : Rest) : Prop := ∀ items, items.InTime → (rest items).2.InTime

section Keeping
variable {now : Nat} {given : Given} {locals : Locals}

theorem keeps_runCommand {next : Value → Rest} (hnext : ∀ v, Keeps (next v)) (c : Command) :
    Keeps (runCommand now next c) := by
  intro items h
  have hrun := (h.run now c).inTime
  unfold runCommand
  split
  · next heq => exact heq ▸ hrun
  · next heq =>
    rw [heq] at hrun
    exact hnext _ _ hrun

theorem keeps_expression {next : Value → Rest} (hnext : ∀ v, Keeps (next v)) (e : Expression) :
    Keeps (e.run now given locals next) := by
  unfold Expression.run
  split
  · split
    · exact keeps_runCommand hnext _
    · exact fun _ h => h
  · exact hnext _
  · exact hnext _
  · exact hnext _

theorem keeps_line {next : Locals → Rest} (hnext : ∀ locals, Keeps (next locals)) (l : Line) :
    Keeps (l.run now given locals next) := by
  unfold Line.run
  split
  · exact keeps_expression (fun _ => hnext _) _
  · exact keeps_expression (fun _ => hnext _) _
  · exact keeps_expression (fun _ _ h => h) _

theorem keeps_runBody {next : Rest} (hnext : Keeps next) (body : List Line) :
    Keeps (runBody now given next locals body) := by
  induction body generalizing locals with
  | nil => exact hnext
  | cons l rest ih => exact keeps_line (fun _ => ih) l

theorem keeps_statement {next : Locals → Rest} (hnext : ∀ locals, Keeps (next locals)) (s : Statement) :
    Keeps (s.run now given locals next) := by
  cases s with
  | line l => exact keeps_line hnext l
  | whenEqual a b body =>
    refine keeps_expression (fun x => keeps_expression (fun y => ?_) b) a
    split
    · exact keeps_runBody (hnext locals) body
    · exact hnext locals

theorem keeps_runFrom (p : Routine) : Keeps (p.runFrom now given locals) := by
  induction p generalizing locals with
  | nil => exact fun _ h => h
  | cons s rest ih => exact keeps_statement (fun _ => ih) s

theorem keeps_run (p : Routine) : Keeps (p.run now given) := keeps_runFrom p

end Keeping

namespace Routine
variable {items written due : Keyspace} {now : Nat} {key amount lifetime : String} {n : Int}

theorem run_compareAndDelete_eq (now : Nat) (key expected : String) :
    compareAndDelete.run now ⟨[key], [expected]⟩ =
      runCommand now (fun found =>
        if found.same (.text expected.toUTF8) then
          runCommand now (fun deleted items => (deleted.reply, items)) ["DEL", key]
        else fun items => (.integer 0, items)) ["GET", key] := by
  simp [Routine.run, compareAndDelete, runFrom, Statement.run, Line.run, runBody, Expression.run, Place.find?]
  rfl

theorem run_increment_eq (now : Nat) (key amount lifetime : String) :
    increment.run now ⟨[key], [amount, lifetime]⟩ =
      runCommand now (fun count => runCommand now (fun left =>
        if left.same (.number (-1)) then runCommand now (fun _ items => (count.reply, items)) ["PEXPIRE", key, lifetime]
        else fun items => (count.reply, items)) ["PTTL", key]) ["INCRBY", key, amount] := by
  simp [Routine.run, increment, runFrom, Statement.run, Line.run, runBody, Expression.run, Place.find?]

theorem run_compareAndDelete (items : Keyspace) (now : Nat) (key expected : String) :
    compareAndDelete.run now ⟨[key], [expected]⟩ items =
      if (items.live? now key).map Item.value = some expected then (.integer 1, items.erase key)
      else (.integer 0, items) := by
  have hget : items.run now ["GET", key] = items.get now key := rfl
  have hdel : items.run now ["DEL", key] = items.del now key := rfl
  rw [run_compareAndDelete_eq, runCommand, hget, Keyspace.get]
  cases hlive : items.live? now key with
  | none => simp [Value.ofReply, Value.same]
  | some item =>
    simp only [Value.ofReply, Value.same_text, Option.map_some, Option.some.injEq]
    by_cases hvalue : item.value = expected
    · have hone : rounded 1 = 1 := by decide
      simp only [hvalue, decide_true, if_true, runCommand, hdel, Keyspace.del, hlive, Value.ofReply, Value.reply, hone]
    · simp only [hvalue, decide_false, Bool.false_eq_true, if_false]

section Increment
variable {items written due : Keyspace} {now : Nat} {key amount lifetime : String} {n left k : Int}

theorem run_increment_of_error {text : String} (h : items.run now ["INCRBY", key, amount] = (.error text, written)) :
    increment.run now ⟨[key], [amount, lifetime]⟩ items = (.error text, written) := by
  simp only [run_increment_eq, runCommand, h]

theorem run_increment_of_lasting (h : items.run now ["INCRBY", key, amount] = (.integer n, written))
    (hleft : written.run now ["PTTL", key] = (.integer left, written)) (hne : rounded left ≠ -1) :
    increment.run now ⟨[key], [amount, lifetime]⟩ items = (.integer (rounded n), written) := by
  simp [run_increment_eq, runCommand, h, hleft, Value.ofReply, Value.same, hne, Value.reply]

theorem run_increment_of_endless (h : items.run now ["INCRBY", key, amount] = (.integer n, written))
    (hleft : written.run now ["PTTL", key] = (.integer (-1), written))
    (hdue : written.run now ["PEXPIRE", key, lifetime] = (.integer k, due)) :
    increment.run now ⟨[key], [amount, lifetime]⟩ items = (.integer (rounded n), due) := by
  have hone : rounded (-1) = -1 := by decide
  simp [run_increment_eq, runCommand, h, hleft, hdue, Value.ofReply, Value.same, hone, Value.reply]

end Increment

end Routine

end Coordination.Remote
