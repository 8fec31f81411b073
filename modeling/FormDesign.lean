import FormDesign.Image.MemoryFiles
import FormDesign.Project.Run
import FormDesign.Proofs.Choices
import FormDesign.Proofs.Code.Binding
import FormDesign.Proofs.Code.Blocks
import FormDesign.Proofs.Code.ByValue
import FormDesign.Proofs.Code.Defaults
import FormDesign.Proofs.Code.Guard
import FormDesign.Proofs.Code.Handlers
import FormDesign.Proofs.Code.Header
import FormDesign.Proofs.Code.Ids
import FormDesign.Proofs.Code.InlineHandlers
import FormDesign.Proofs.Code.Matching
import FormDesign.Proofs.Code.MenuScope
import FormDesign.Proofs.Code.MethodNames
import FormDesign.Proofs.Code.MethodPointers
import FormDesign.Proofs.Code.Outcome
import FormDesign.Proofs.Code.PageOrder
import FormDesign.Proofs.Code.Parameters
import FormDesign.Proofs.Code.PictureData
import FormDesign.Proofs.Code.PictureHelpers
import FormDesign.Proofs.Code.PlatformBlocks
import FormDesign.Proofs.Code.Platforms
import FormDesign.Proofs.Code.Reordered
import FormDesign.Proofs.Code.Routing
import FormDesign.Proofs.Code.Scope
import FormDesign.Proofs.Code.SizerOrder
import FormDesign.Proofs.Code.Transparent
import FormDesign.Proofs.Code.Validators
import FormDesign.Proofs.Code.VariableNames
import FormDesign.Proofs.Identifier
import FormDesign.Proofs.Image.ArrayName
import FormDesign.Proofs.Image.DataRows
import FormDesign.Proofs.Image.Description
import FormDesign.Proofs.Image.Gathered
import FormDesign.Proofs.Layout.InPlace
import FormDesign.Proofs.Project.InitialState
import FormDesign.Proofs.Project.MissingDirectories
import FormDesign.Proofs.Project.RepeatedDisk
import FormDesign.Proofs.Project.SameForm
import FormDesign.Proofs.Project.SizerLayout
import FormDesign.Proofs.Resource.Dropdowns
import FormDesign.Proofs.Resource.Handlers
import FormDesign.Proofs.Resource.Preview
import FormDesign.Proofs.Resource.Traceless
import FormDesign.Proofs.Tree.Copy
import FormDesign.Proofs.Tree.Walk
import FormDesign.Proofs.Xml.DocumentOrder
import FormDesign.Resource.Handler
import FormDesign.Text.Utf8
