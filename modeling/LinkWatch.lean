import LinkWatch.Main
import LinkWatch.Proofs.Path
import LinkWatch.Proofs.Resolution
import LinkWatch.Proofs.Engine.Convergence
import LinkWatch.Proofs.Engine.Interleaving
import LinkWatch.Proofs.Engine.Notices
import LinkWatch.Scripted.Crew
import LinkWatch.Scripted.Executor
import LinkWatch.Scripted.LiveSession
import LinkWatch.Scripted.Recorder
import LinkWatch.Scripted.Session
import LinkWatch.Proofs.Walk.Lookup
import LinkWatch.Proofs.Engine.Native
import LinkWatch.Proofs.Walk.Interests
import LinkWatch.Proofs.Walk.WellFormed
import LinkWatch.Proofs.Walk.Transcript
import LinkWatch.Proofs.Engine.ConcurrentSync
import LinkWatch.Proofs.Listener.Dispatcher
import LinkWatch.Proofs.Listener.Shift
import LinkWatch.Proofs.Engine.Acts
import LinkWatch.Proofs.Closing.ThreadedWatcher
import LinkWatch.Proofs.Closing.Teardown
import LinkWatch.Proofs.Closing.Race
import LinkWatch.Proofs.Engine.Audience
import LinkWatch.Proofs.Engine.ClosedForm
import LinkWatch.Proofs.LiveTable.Undisturbed
import LinkWatch.Proofs.LiveTable.CatchUp
import LinkWatch.Proofs.Walk.Idempotence
import LinkWatch.Proofs.Walk.Composition
import LinkWatch.Proofs.Listener.Company
import LinkWatch.Proofs.Listener.Register
import LinkWatch.Proofs.Engine.Silence
import LinkWatch.Proofs.Closing.Deadlines
import LinkWatch.Proofs.Loop.Requests
import LinkWatch.Proofs.Watcher.Spelling
