import BufferFeed.Boundary.Act

/-!
# Calls from within the process

Code that shares the process with the table of live feeds needs no surface: it makes feeds and
registers them, borrows a feed for one action, and releases it. Failures and panics reach it as they
are; nothing is contained here.

A borrower may panic while it holds the table (`lendAndPanic`). Its action is done by then, and
stays done. It may also arm the logger, so that a later record panics.
-/

namespace BufferFeed.Direct

inductive Call
  /-- Makes a feed from the source of the process and registers it. -/
  | register (count size : UInt64)
  /-- Makes a feed from entropy and registers it. -/
  | registerFresh (count size : UInt64) (key : Keystream.Key)
  /-- Acts on the feed behind a handle. -/
  | lend (handle : Handle) (action : Feed.Action)
  /-- Acts on the feed behind a handle, then panics while the table is held. -/
  | lendAndPanic (handle : Handle) (action : Feed.Action)
  | release (handle : Handle)
  /-- Asks how many feeds live. -/
  | live
  /-- Arms the logger. -/
  | armLogger
deriving Repr

inductive Reply
  | issued (handle : Handle)
  /-- What the feed answered, and how it stands then. -/
  | lent (result : Except Failure Feed.Answer) (status : Feed.Status)
  | number (n : Nat)
  | done

def Call.act : Call → Act Reply
  | .register count size => do
    let f ← Act.makeFeed count.toNat size.toNat
    let handle ← Act.register f
    return .issued handle
  | .registerFresh count size key => do
    let f ← Act.makeFreshFeed count.toNat size.toNat key
    let handle ← Act.register f
    return .issued handle
  | .lend handle action => do
    let (result, status) ← Act.lend handle (Feed.serve action)
    return .lent result status
  | .lendAndPanic handle action => do
    let _ ← Act.lend handle (Feed.serve action)
    Act.panic "closure panic"
  | .release handle => do
    Act.release handle
    return .done
  | .live => do
    let s ← Act.get
    return .number s.table.size
  | .armLogger => do
    let s ← Act.get
    Act.set { s with armed := true }
    return .done

end BufferFeed.Direct
