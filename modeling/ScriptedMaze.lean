import ScriptedMaze.Main
import ScriptedMaze.Play.Alarm
import ScriptedMaze.Play.Sitting
import ScriptedMaze.Service.Routes
import ScriptedMaze.Proofs.Route.Budget
import ScriptedMaze.Proofs.Script.Accepted
import ScriptedMaze.Proofs.Script.Outline
import ScriptedMaze.Proofs.Play.Calls
import ScriptedMaze.Proofs.Play.Turns
import ScriptedMaze.Proofs.Script.Unrolled
import ScriptedMaze.Proofs.Play.Steps
import ScriptedMaze.Proofs.Play.Writes
import ScriptedMaze.Proofs.Play.Ownership
import ScriptedMaze.Proofs.Play.Held
import ScriptedMaze.Proofs.Play.Dismissed
import ScriptedMaze.Proofs.Play.Renewed
import ScriptedMaze.Proofs.Play.Undisturbed
import ScriptedMaze.Proofs.Script.LineByLine
import ScriptedMaze.Proofs.Script.Joined
import ScriptedMaze.Proofs.Play.Unread
import ScriptedMaze.Proofs.Play.Offered
import ScriptedMaze.Proofs.Service.Refused
import ScriptedMaze.Proofs.Service.Apart
import ScriptedMaze.Proofs.Maze.Footprint
import ScriptedMaze.Proofs.Play.Chronicle
import ScriptedMaze.Proofs.Play.Halted
import ScriptedMaze.Proofs.Play.Display
import ScriptedMaze.Proofs.Script.Covered
import ScriptedMaze.Proofs.Script.Respaced
import ScriptedMaze.Proofs.Service.Polling
import ScriptedMaze.Proofs.Terminal.Winnable
import ScriptedMaze.Proofs.Script.Amount
import ScriptedMaze.Proofs.Terminal.Pictures
import ScriptedMaze.Proofs.Play.Spared
import ScriptedMaze.Proofs.Route.Opened
import ScriptedMaze.Proofs.Route.Estimate
import ScriptedMaze.Proofs.Route.Origins
import ScriptedMaze.Proofs.Maze.Addresses
import ScriptedMaze.Proofs.Script.Offences
import ScriptedMaze.Proofs.Script.Progress
import ScriptedMaze.Proofs.Play.LastWords
