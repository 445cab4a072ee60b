import LinkWatch.Error
import LinkWatch.Path.Basic
import LinkWatch.Text.Blank
import LinkWatch.Text.Duration

/-!
The settings of a watcher: as written, as accepted, and as the spans of time and numbers that a watcher is started
with. Settings as written are accepted if no number is zero and no path is blank.
-/

namespace LinkWatch

/-- What a watcher is started with. -/
structure Options where
  callbackThreads : Nat := 4
  /-- The longest wait for each executor at the end, and for a batch that is being handled. -/
  shutdownTimeout : Duration := .ofSeconds 10
  pollInterval : Duration := .ofMillis 100
deriving DecidableEq, Inhabited

/-- The numbers of a watcher. -/
structure WatcherSettings where
  callbackThreads : Nat := 4
  shutdownTimeoutSecs : Nat := 10
  pollIntervalMillis : Nat := 100
deriving DecidableEq, Inhabited

/-- Settings as written. -/
structure RawSettings where
  paths : List String := []
  watcher : WatcherSettings := {}
deriving DecidableEq, Inhabited

/-- Settings that were accepted. -/
structure Settings where
  paths : List Path
  watcher : WatcherSettings
deriving DecidableEq, Inhabited

/-- The first number that is zero. -/
def WatcherSettings.zero? (w : WatcherSettings) : Option String :=
  if w.callbackThreads = 0 then some "callback_threads"
  else if w.shutdownTimeoutSecs = 0 then some "shutdown_timeout_secs"
  else if w.pollIntervalMillis = 0 then some "poll_interval_ms"
  else none

/-- A path of nothing but blanks. -/
def isBlankText (s : String) : Bool := (Text.trim s.toList).isEmpty

/-- Accepts settings. -/
def RawSettings.accept (raw : RawSettings) : Except SettingError Settings :=
  match raw.watcher.zero? with
  | some setting => .error (.zero setting)
  | none =>
    match raw.paths.findIdx? isBlankText with
    | some index => .error (.emptyPath index)
    | none => .ok { paths := raw.paths.map Path.ofString, watcher := raw.watcher }

def Settings.options (s : Settings) : Options where
  callbackThreads := s.watcher.callbackThreads
  shutdownTimeout := .ofSeconds s.watcher.shutdownTimeoutSecs
  pollInterval := .ofMillis s.watcher.pollIntervalMillis

end LinkWatch
