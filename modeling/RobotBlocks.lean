import RobotBlocks.Config.File
import RobotBlocks.Main
import RobotBlocks.Proofs.Guard.Descent
import RobotBlocks.Proofs.Program.Agreement
import RobotBlocks.Proofs.Program.Multiplicity
import RobotBlocks.Proofs.Program.Omissions
import RobotBlocks.Proofs.Program.Rearrangement
import RobotBlocks.Proofs.Program.Renewal
import RobotBlocks.Proofs.Simulation.Destination
import RobotBlocks.Proofs.Simulation.Failures
import RobotBlocks.Proofs.Simulation.Landing
import RobotBlocks.Proofs.Simulation.Phases
import RobotBlocks.Proofs.Simulation.ProgramRuns
import RobotBlocks.Proofs.View.ShownProgram
import RobotBlocks.View.Highlight
import RobotBlocks.View.Layout
import RobotBlocks.Proofs.Simulation.Transcript
import RobotBlocks.Proofs.Simulation.Snapshots
import RobotBlocks.Proofs.Simulation.FlightReports
import RobotBlocks.Proofs.Simulation.Directives
import RobotBlocks.Proofs.Simulation.SpeedRange
import RobotBlocks.Proofs.Simulation.Renumbering
import RobotBlocks.Proofs.Simulation.Pasts
import RobotBlocks.Proofs.Simulation.AgentSwitch
import RobotBlocks.Proofs.Block.Saving
import RobotBlocks.Proofs.View.Mirroring
import RobotBlocks.Proofs.View.AgentChoice
import RobotBlocks.Proofs.Simulation.Timetable
import RobotBlocks.Proofs.Program.Reuse
import RobotBlocks.Proofs.Guard.Tokenizing
import RobotBlocks.Proofs.Guard.Safety
import RobotBlocks.Proofs.Simulation.Trajectory
import RobotBlocks.Proofs.Graph.ReadingOrder
import RobotBlocks.Proofs.Program.Repetition
import RobotBlocks.Proofs.Program.Indentation
import RobotBlocks.Proofs.Program.PhysicalLines
import RobotBlocks.Proofs.Scene.Boxes
import RobotBlocks.Proofs.Simulation.Effects
import RobotBlocks.Proofs.Simulation.SpeedLimits
import RobotBlocks.Proofs.Graph.GeneratedIds
import RobotBlocks.Proofs.Diagnostics
import RobotBlocks.Proofs.Program.TypeNames
import RobotBlocks.Proofs.Config.RoundTrip
import RobotBlocks.Proofs.Guard.Recursion
