import LC3.Console.RawMode
import LC3.Field
import LC3.Keyboard.Terminal
import LC3.Main
import LC3.Proofs.Checked.Engine
import LC3.Proofs.Condition
import LC3.Proofs.Console.Independence
import LC3.Proofs.Console.Translation
import LC3.Proofs.Decoding
import LC3.Proofs.FailedCalls
import LC3.Proofs.Footprint
import LC3.Proofs.Halting
import LC3.Proofs.Isa.Refinement
import LC3.Proofs.Keyboard.Arrival
import LC3.Proofs.Keyboard.Chunking
import LC3.Proofs.Keyboard.Consumption
import LC3.Proofs.Keyboard.Interruption
import LC3.Proofs.Keyboard.Paths
import LC3.Proofs.Keyboard.Typing
import LC3.Proofs.LastImage
import LC3.Proofs.Printing
import LC3.Proofs.Redirected
import LC3.Proofs.StatusCell
import LC3.Proofs.Transparency
import LC3.Proofs.Console.Visibility
import LC3.Proofs.Isa.FieldValues
import LC3.Proofs.Report
