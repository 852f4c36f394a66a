import Apivuln.Exec
import Apivuln.Plan
import Apivuln.Http1.Header
import Apivuln.Http1.Framing
import Apivuln.Http1.Runner
import Apivuln.Http1.Poll
import Apivuln.Http1.Drive
import Apivuln.Http1.Send
import Apivuln.Http1.Receive
import Apivuln.Http1.Calls
import Apivuln.Http1.Lifecycle
import Apivuln.Http1.Runs
import Apivuln.Http1.Timing
import Apivuln.Http1.Log
import Apivuln.Ql.Executor
