import BL.CommandLine.Run
import BL.Main
import BL.Proofs.CommandLine.Formatting
import BL.Proofs.Composition
import BL.Proofs.DefinitionOrder
import BL.Proofs.Enclosure
import BL.Proofs.EndOfInput
import BL.Proofs.Layout.Identification
import BL.Proofs.Layout.Indentation
import BL.Proofs.PrintedPrograms
import BL.Proofs.Reading.Dependence
import BL.Proofs.Reading.FailedTarget
import BL.Proofs.Reading.Termination
import BL.Proofs.Recognition
import BL.Proofs.Redefinition
import BL.Proofs.Reports
import BL.Proofs.Source.LineEnds
import BL.Proofs.Workspace.Conservation
import BL.Proofs.Workspace.Printing
import BL.Proofs.Workspace.Programs
