import CoroEpoll.System.Interface

/-! The kqueue interface of macOS. -/

set_option autoImplicit false

namespace CoroEpoll

abbrev Filter := Int

def EVFILT_READ : Filter := -1
def EVFILT_WRITE : Filter := -2

abbrev KeventFlags := BitVec 16

def EV_ADD : KeventFlags := 0x0001#16
def EV_DELETE : KeventFlags := 0x0002#16
def EV_ENABLE : KeventFlags := 0x0004#16
def EV_CLEAR : KeventFlags := 0x0020#16
def EV_ERROR : KeventFlags := 0x4000#16
def EV_EOF : KeventFlags := 0x8000#16

structure Kevent where
  ident : Fd
  filter : Filter
  flags : KeventFlags
  deriving DecidableEq, Repr

/-- What the event loop calls: kevent with one change, which answers `none` or an
errno, and the reads that empty the wakeup pipe. -/
structure KqueueApi (K : Type) where
  kevent : Kevent → K → Option Errno × K
  drain : Fd → K → K

end CoroEpoll
