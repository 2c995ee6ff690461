/-!
# Chains of causes

A failure of the host is told as a chain of messages, the outermost first: what was being done,
and under it why it went wrong. A chain is never empty.
-/

namespace ProbeLoader

structure Chain where
  outermost : String
  causes : List String
  deriving DecidableEq, Repr

namespace Chain

def ofMessage (message : String) : Chain := ⟨message, []⟩

/-- The chain of a non-empty list of messages. -/
def ofList? : List String → Option Chain
  | [] => none
  | m :: ms => some ⟨m, ms⟩

def messages (c : Chain) : List String := c.outermost :: c.causes

/-- Puts a message around a chain. -/
def within (c : Chain) (context : String) : Chain := ⟨context, c.messages⟩

/-- All messages on one line. -/
def joined (c : Chain) : String := ": ".intercalate c.messages

end Chain

end ProbeLoader
