import Kannel.Gwlib.Conn

/-!
# Connections under a poller

A registered connection is watched by an `fdset` thread, which calls `poll_callback`; what a
poll reports is an argument.
-/

namespace Kannel

structure PollEvents where
  pollin : Bool
  pollout : Bool
  hangup : Bool
  deriving DecidableEq, Repr

def connRegister (conn : Connection) : Connection :=
  if conn.registered then conn
  else
    { conn with
      registered := true
      listeningPollin := !conn.readEof && !conn.ioError
      listeningPollout := decide (0 < unlockedOutbufLen conn) }

def connUnregister (conn : Connection) : Connection :=
  if conn.registered then
    { conn with registered := false, listeningPollin := false, listeningPollout := false }
  else conn

def pollCallback (conn : Connection) (revents : PollEvents) : Connection × Bool :=
  let conn :=
    if revents.hangup then
      { conn with listeningPollin := false, listeningPollout := false, ioError := true }
    else conn
  let conn := if revents.pollout then (unlockedWrite conn).2 else conn
  let emptied := revents.pollout && decide (unlockedOutbufLen conn = 0)
  let conn := if revents.pollin then unlockedRead conn else conn
  (conn, revents.hangup || emptied || revents.pollin)

def connWait (conn : Connection) (polled : Option PollEvents) : Connection :=
  match unlockedWrite conn with
  | (none, conn) => conn
  | (some (_+1), conn) => conn
  | (some 0, conn) =>
    match polled with
    | none => conn
    | some revents =>
      if revents.hangup then unlockedRead conn
      else
        let conn := if revents.pollout then (unlockedWrite conn).2 else conn
        if revents.pollin then unlockedRead conn else conn

def Connection.expects (conn : Connection) (revents : PollEvents) : Bool :=
  (!revents.pollin || conn.listeningPollin) && (!revents.pollout || conn.listeningPollout)

section
variable (conn : Connection)

@[simp] theorem unread_connRegister : (connRegister conn).unread = conn.unread := by
  unfold connRegister
  split <;> rfl

@[simp] theorem registered_connRegister : (connRegister conn).registered = true := by
  unfold connRegister
  split
  · assumption
  · rfl

@[simp] theorem unread_unlockedWrite : (unlockedWrite conn).2.unread = conn.unread := by
  unfold unlockedWrite
  split
  · rfl
  · unfold discardWritten
    split <;> rfl

@[simp] theorem registered_unlockedWrite : (unlockedWrite conn).2.registered = conn.registered := by
  unfold unlockedWrite
  split
  · rfl
  · unfold discardWritten
    split <;> rfl

@[simp] theorem registered_unlockedRead : (unlockedRead conn).registered = conn.registered := by
  have hdiscard : (discardConsumed conn).registered = conn.registered := by
    unfold discardConsumed
    split <;> rfl
  unfold unlockedRead
  dsimp only
  split <;> exact hdiscard

@[simp] theorem unread_unlockedTryWrite : (unlockedTryWrite conn).2.unread = conn.unread := by
  have hwrite := unread_unlockedWrite conn
  grind [unlockedTryWrite]

@[simp] theorem unread_connWrite (data : Octstr) :
    (connWrite conn data).2.unread = conn.unread := by
  rw [connWrite, unread_unlockedTryWrite]
  rfl

@[simp] theorem registered_pollCallback (revents : PollEvents) :
    (pollCallback conn revents).1.registered = conn.registered := by
  unfold pollCallback
  split <;> split <;> split <;> simp

end
end Kannel
