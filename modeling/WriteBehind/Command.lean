import WriteBehind.Bytes

/-!
# Command — the mutating commands a queue can hold

A command has a name, a tag that is written to disk, and an arity.  Argument counts include the key
and leave out the command's name.

* `Command.all` lists the commands in the order of their tags;
* `Command.ofTag?` and `Command.ofName?` look a command up, names without regard to ASCII case;
* `Command.ofTag?_tag` and `Command.tag_of_ofTag?` say that a tag and its command determine
  each other.
-/

namespace WriteBehind

/-- A mutating command. -/
inductive Command
  | set | mSet | expireAt | lPop | rPop | lPushX | rPushX | lPush
  | rPush | zAdd | incr | incrBy | zIncrBy | zRem | zRemRangeByScore | zRemRangeByRank
  deriving DecidableEq, Repr

/-- Which argument counts a command takes. -/
inductive Arity
  | exactly (n : Nat)
  | atLeast (n : Nat)
  /-- Keys and values in turn: an even count of at least `n`. -/
  | pairs (n : Nat)
  /-- A key and then pairs: an odd count of at least `n`. -/
  | keyAndPairs (n : Nat)
  deriving DecidableEq, Repr

namespace Arity

/-- Whether a command of this arity takes `count` arguments. -/
def accepts : Arity → Nat → Bool
  | exactly n, count => count == n
  | atLeast n, count => n ≤ count
  | pairs n, count => n ≤ count && count % 2 == 0
  | keyAndPairs n, count => n ≤ count && count % 2 == 1

end Arity

namespace Command

/-- Every command, in the order of the tags. -/
def all : List Command :=
  [set, mSet, expireAt, lPop, rPop, lPushX, rPushX, lPush,
    rPush, zAdd, incr, incrBy, zIncrBy, zRem, zRemRangeByScore, zRemRangeByRank]

/-- The number written to disk for the command.  Tags are never reused. -/
def tag : Command → Nat
  | set => 1
  | mSet => 2
  | expireAt => 3
  | lPop => 4
  | rPop => 5
  | lPushX => 6
  | rPushX => 7
  | lPush => 8
  | rPush => 9
  | zAdd => 10
  | incr => 11
  | incrBy => 12
  | zIncrBy => 13
  | zRem => 14
  | zRemRangeByScore => 15
  | zRemRangeByRank => 16

/-- The command's name, in lower case. -/
def name : Command → String
  | set => "set"
  | mSet => "mset"
  | expireAt => "expireat"
  | lPop => "lpop"
  | rPop => "rpop"
  | lPushX => "lpushx"
  | rPushX => "rpushx"
  | lPush => "lpush"
  | rPush => "rpush"
  | zAdd => "zadd"
  | incr => "incr"
  | incrBy => "incrby"
  | zIncrBy => "zincrby"
  | zRem => "zrem"
  | zRemRangeByScore => "zremrangebyscore"
  | zRemRangeByRank => "zremrangebyrank"

/-- The argument counts the command takes. -/
def arity : Command → Arity
  | set | expireAt | lPushX | rPushX | incrBy => .exactly 2
  | mSet => .pairs 2
  | lPop | rPop | incr => .exactly 1
  | lPush | rPush | zRem => .atLeast 2
  | zAdd => .keyAndPairs 3
  | zIncrBy | zRemRangeByScore | zRemRangeByRank => .exactly 3

/-- The command with this tag. -/
def ofTag? (n : Nat) : Option Command := all.find? fun c => c.tag == n

/-- The command with this name, in letters of either case. -/
def ofName? (s : String) : Option Command :=
  all.find? fun c => c.name.toList == s.toList.map Char.toLower

/-! ## Tags and commands determine each other -/

theorem ofTag?_tag (c : Command) : ofTag? c.tag = some c := by
  cases c <;> decide

theorem tag_of_ofTag? {n : Nat} {c : Command} (h : ofTag? n = some c) : c.tag = n := by
  simpa using List.find?_some h

theorem ofTag?_eq_none {n : Nat} (h : ∀ c : Command, c.tag ≠ n) : ofTag? n = none := by
  rw [ofTag?, List.find?_eq_none]
  intro c _
  simpa using h c

theorem tag_lt (c : Command) : c.tag < 2 ^ 32 := by
  cases c <;> decide

end Command

end WriteBehind
